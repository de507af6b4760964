import Mathlib.Data.List.Chain
import NutContainer.Proofs.VarintSpelling
import NutContainer.Proofs.WriterRuns

/-! How far sync points lie apart. Whether a frame gets one is decided before its header is made,
with a fixed allowance for the header, so the distance that is kept depends on how long a header
can become: for any stream, any time that can be coded and any payload that is small enough to go
without a sync point, it is shorter than the allowance. A frame that has a sync point of its own
may be of any size, and it is the only one that may. -/
namespace NutContainer

namespace Contents

/-- Where an element ends: at the one behind it, or else where the bytes end. -/
def endBefore (stop : Nat) (back : List Placed) : Nat := (back.head?.map (·.offset)).getD stop

/-- Every frame that is not the first one behind the last sync point before it ends less than
`limit` bytes behind the beginning of that sync point. -/
def Spaced (limit stop : Nat) (body : List Placed) : Prop :=
  ∀ front point between record back, body = front ++ point :: (between ++ record :: back) →
    point.isSync → (∀ placed ∈ between, placed.isSync = false) → between ≠ [] → record.isFrame →
      endBefore stop back < point.offset + limit

/-- Right behind every sync point stands a frame. -/
structure Followed (body : List Placed) : Prop where
  chained : body.IsChain fun first second => first.isSync → second.isFrame
  closed : ∀ last ∈ body.getLast?, last.isFrame

variable {limit stop : Nat} {body : List Placed} {element : Element}

/-- The last element of all has ended where the one behind it begins. -/
theorem endBefore_concat (stop next : Nat) (back : List Placed) (element : Element) :
    endBefore next (back ++ [⟨stop, element⟩]) = endBefore stop back := by
  cases back with
  | nil => rfl
  | cons first rest => rfl

/-- An element at the end leaves the others spaced. If it is a frame, it must end near enough
itself. -/
theorem Spaced.concat (spaced : Spaced limit stop body) {next : Nat}
    (near : element.isFrame → ∀ front point between, body = front ++ point :: between →
      point.isSync → (∀ placed ∈ between, placed.isSync = false) → between ≠ [] →
        next < point.offset + limit) :
    Spaced limit next (body ++ [⟨stop, element⟩]) := by
  intro front point between record back split sync plain apart frame
  have shape : body ++ [⟨stop, element⟩] = (front ++ point :: between) ++ record :: back := by
    rw [split, List.append_assoc, List.cons_append]
  obtain ⟨same, rfl, rfl⟩ | ⟨ahead, rfl, same⟩ := split_concat shape
  · exact near frame front point between same sync plain apart
  · rw [List.append_assoc, List.cons_append] at same
    rw [endBefore_concat]
    exact spaced front point between record ahead same sync plain apart frame

theorem getLast?_syncpoints (headers : Headers) (front : List Placed) {between : List Placed}
    {point : Placed} (sync : point.isSync) (none_between : ∀ placed ∈ between, placed.isSync = false) :
    (syncpoints ⟨headers, front ++ point :: between⟩).getLast? = some point.offset := by
  have tail : between.filter Placed.isSync = [] := by
    simpa [List.filter_eq_nil_iff] using none_between
  rw [syncpoints_eq, List.filter_append, List.filter_cons_of_pos sync, tail, List.map_append]
  exact List.getLast?_concat

theorem not_isSync_of_isFrame {placed : Placed} (frame : placed.isFrame) :
    placed.isSync = false := by
  obtain ⟨offset, element⟩ := placed
  cases element with
  | frame flags stream pts payload => rfl
  | syncpoint pts clock back => cases frame
  | index contents => cases frame

theorem isFrame_of_plain {placed : Placed} (plain : placed.element.isIndex = false)
    (other : placed.isSync = false) : placed.isFrame := by
  obtain ⟨offset, element⟩ := placed
  cases element with
  | frame flags stream pts payload => rfl
  | syncpoint pts clock back => cases other
  | index contents => cases plain

/-- Behind a frame, a frame or a sync point with its frame can follow. -/
theorem Followed.append (followed : Followed body) (more : List Placed) {record : Placed}
    (frame : record.isFrame)
    (chained : (more ++ [record]).IsChain fun first second => first.isSync → second.isFrame) :
    Followed (body ++ (more ++ [record])) := by
  constructor
  · rw [List.isChain_append]
    refine ⟨followed.chained, chained, fun last closes first _ sync => ?_⟩
    have plain := not_isSync_of_isFrame (followed.closed last closes)
    rw [plain] at sync
    cases sync
  · intro last closes
    rw [← List.append_assoc, List.getLast?_append] at closes
    cases closes
    exact frame

theorem Followed.next (followed : Followed body) {front back : List Placed} {point : Placed}
    (split : body = front ++ point :: back) (sync : point.isSync) :
    ∃ record rest, back = record :: rest ∧ record.isFrame := by
  cases back with
  | nil =>
    have frame := followed.closed point (by simp [split])
    rw [not_isSync_of_isFrame frame] at sync
    cases sync
  | cons record rest =>
    have chained := followed.chained
    rw [split, List.isChain_append, List.isChain_cons_cons] at chained
    exact ⟨record, rest, rfl, chained.2.1.1 sync⟩

/-- Two sync points without another between them are near to each other, or there is a single
frame between them. -/
theorem Spaced.consecutive (spaced : Spaced limit stop body) (followed : Followed body)
    (plain : ∀ placed ∈ body, placed.element.isIndex = false) {front between back : List Placed}
    {point other : Placed} (split : body = front ++ point :: (between ++ other :: back))
    (first : point.isSync) (second : other.isSync)
    (none_between : ∀ placed ∈ between, placed.isSync = false) :
    other.offset < point.offset + limit ∨ ∃ record, between = [record] ∧ record.isFrame := by
  obtain ⟨record, rest, behind, frame⟩ := followed.next split first
  cases between with
  | nil =>
    obtain ⟨rfl, _⟩ := List.cons.inj behind
    rw [not_isSync_of_isFrame frame] at second
    cases second
  | cons one others =>
    obtain ⟨rfl, _⟩ := List.cons.inj behind
    obtain rfl | ⟨middle, last, rfl⟩ := List.eq_nil_or_concat others
    · exact .inr ⟨one, rfl, frame⟩
    · left
      rw [List.concat_eq_append] at split none_between
      have inside : last ∈ body := by simp [split]
      have final : last.isFrame := isFrame_of_plain (plain last inside) (none_between last (by simp))
      have shape : front ++ point :: (one :: (middle ++ [last]) ++ other :: back) =
          front ++ point :: ((one :: middle) ++ last :: other :: back) := by simp
      have near := spaced front point (one :: middle) last (other :: back) (split.trans shape) first
        (fun placed member => none_between placed (by
          rcases List.mem_cons.mp member with rfl | member
          · simp
          · simp [member])) (by simp) final
      exact near

end Contents

namespace Draft

variable {headers : Headers} {draft : Draft} {stream : UInt32} {pts : Nat}

/-- With a payload below the greatest distance between sync points, a frame's own header stays
within the allowance for it. -/
theorem length_record_lt (agree : headers.Agree) {header : StreamHeader}
    (found : headers.stream? stream = some header) (admits : headers.Admits stream pts)
    {payload : Bytes} (small : payload.length < maxDistanceLimit.toNat) :
    (FrameRecord.encode header (headers.main.frameCodes.get FrameCodeTable.genericCode) pts
      payload).length < payload.length + Recording.frameAllowance := by
  have unshifted := agree.unshifted header (List.mem_of_getElem? found)
  have clocks : 1 ≤ headers.clockCount := Nat.one_le_of_lt (admits.clock agree)
  have coded := codedTime?_isSome.mp admits.2
  have ticks : pts ≤ pts * headers.clockCount := Nat.le_mul_of_pos_right pts clocks
  have mask : Varint.size (FrameFlag.mask FrameRecord.statedFlags) ≤ 2 :=
    (Varint.size_le_iff (by decide)).mpr (by decide)
  have id : Varint.size header.stream.toNat ≤ 5 :=
    (Varint.size_le_iff (by decide)).mpr (Nat.lt_trans header.stream.toNat_lt (by decide))
  have time : Varint.size (pts + 1) ≤ 10 := by
    apply (Varint.size_le_iff (by decide)).mpr
    change pts + 1 < 0x400000000000000000
    rw [UInt64.size] at coded
    omega
  have size : Varint.size payload.length ≤ 3 :=
    (Varint.size_le_iff (by decide)).mpr (Nat.lt_trans small (by decide))
  rw [agree.codes, get_generic, FrameRecord.encode, FrameRecord.header, Contents.stated_eq unshifted]
  simp only [List.length_append, List.length_cons, Varint.length_encode, Bytes.ofWord32,
    Bytes.length_ofNat, Recording.frameAllowance]
  omega

/-- The last sync point of the books is the last one that a reader finds. -/
theorem Booked.lastSyncpoint?_getLast? (booked : draft.Booked headers) :
    draft.ledger.lastSyncpoint? = (Contents.syncpoints ⟨headers, draft.body⟩).getLast? := by
  rw [booked.points]
  simp [Ledger.lastSyncpoint?, Ledger.syncpoints]

theorem Booked.lastSyncpoint?_eq (booked : draft.Booked headers) {front between : List Placed}
    {point : Placed} (split : draft.body = front ++ point :: between) (sync : point.isSync)
    (none_between : ∀ placed ∈ between, placed.isSync = false) :
    draft.ledger.lastSyncpoint? = some point.offset := by
  rw [booked.lastSyncpoint?_getLast?, split]
  exact Contents.getLast?_syncpoints headers front sync none_between

/-- What holds of the distances in a file between two frames. -/
structure Paced (headers : Headers) (draft : Draft) : Prop where
  spaced : Contents.Spaced headers.main.maxDistance.toNat draft.bytes.length draft.body
  followed : Contents.Followed draft.body
  plain : ∀ placed ∈ draft.body, placed.element.isIndex = false
  inside : ∀ placed ∈ draft.body, placed.offset ≤ draft.bytes.length

theorem paced_blank (headers : Headers) (front : Bytes) : (blank headers front).Paced headers where
  spaced := by
    intro front point between record back split
    simp [blank] at split
  followed := ⟨.nil, nofun⟩
  plain := by simp [blank]
  inside := by simp [blank]

theorem inside_put (inside : ∀ placed ∈ draft.body, placed.offset ≤ draft.bytes.length)
    (ledger : Ledger) (bytes : Bytes) (element : Element) :
    ∀ placed ∈ (draft.put ledger bytes element).body,
      placed.offset ≤ (draft.put ledger bytes element).bytes.length := by
  intro placed member
  rw [put, List.length_append]
  rcases List.mem_append.mp member with old | new
  · exact Nat.le_add_right_of_le (inside placed old)
  · cases List.mem_singleton.mp new
    exact Nat.le_add_right _ _

/-- A frame that goes without a sync point ends near the last one. -/
theorem near_of_unneeded (agree : headers.Agree) {header : StreamHeader}
    (found : headers.stream? stream = some header) (admits : headers.Admits stream pts)
    (limited : headers.main.maxDistance ≤ maxDistanceLimit) {payload : Bytes} {last : Nat}
    (known : draft.ledger.lastSyncpoint? = some last) (behind : last ≤ draft.bytes.length)
    (unneeded : ¬ Recording.needsSyncpoint draft.ledger headers.main.maxDistance draft.bytes.length
      payload.length) :
    (draft.putRecord headers header stream pts payload).bytes.length <
      last + headers.main.maxDistance.toNat := by
  have room : draft.bytes.length + payload.length + Recording.frameAllowance <
      last + headers.main.maxDistance.toNat := by
    simpa [Recording.needsSyncpoint, known] using unneeded
  have most : headers.main.maxDistance.toNat ≤ maxDistanceLimit.toNat := limited
  have small : payload.length < maxDistanceLimit.toNat := by omega
  have record := length_record_lt agree found admits small
  rw [putRecord, put, List.length_append]
  omega

theorem isFrame_ofFrame (offset : Nat) (stream : UInt32) (pts : Nat) (payload : Bytes) :
    Placed.isFrame ⟨offset, .ofFrame stream pts payload⟩ := rfl

/-- A frame without a sync point ends near the last one. -/
theorem Paced.putRecord (paced : draft.Paced headers) (booked : draft.Booked headers)
    (agree : headers.Agree) (limited : headers.main.maxDistance ≤ maxDistanceLimit)
    {header : StreamHeader} (found : headers.stream? stream = some header)
    (admits : headers.Admits stream pts) {payload : Bytes}
    (unneeded : ¬ Recording.needsSyncpoint draft.ledger headers.main.maxDistance draft.bytes.length
      payload.length) :
    (draft.putRecord headers header stream pts payload).Paced headers where
  spaced := by
    apply paced.spaced.concat
    intro _ front point between split sync plain _
    have last := booked.lastSyncpoint?_eq split sync plain
    have behind := paced.inside point (by simp [split])
    exact near_of_unneeded agree found admits limited last behind unneeded
  followed := paced.followed.append [] (isFrame_ofFrame ..) (List.isChain_singleton _)
  plain := put_plain paced.plain _ _ rfl
  inside := inside_put paced.inside _ _ _

/-- A frame with a sync point of its own may end anywhere: it is the first one behind it. -/
theorem Paced.putSynced (paced : draft.Paced headers) (header : StreamHeader) (stream : UInt32)
    (pts : Nat) (payload : Bytes) : ((draft.putSyncpoint headers stream pts).putRecord headers header
      stream pts payload).Paced headers where
  spaced := by
    apply (paced.spaced.concat _).concat
    · intro _ front point between split _ plain apart
      obtain ⟨ahead, last, rfl⟩ := (List.eq_nil_or_concat between).resolve_left apart
      rw [List.concat_eq_append, ← List.cons_append, ← List.append_assoc] at split
      obtain ⟨_, same⟩ := List.append_inj' split rfl
      have other := plain last (by simp)
      cases same
      cases other
    · exact nofun
  followed := by
    have chained := paced.followed.append
      [⟨draft.bytes.length, .syncpoint pts stream.toNat draft.back⟩]
      (isFrame_ofFrame (draft.putSyncpoint headers stream pts).bytes.length stream pts payload)
      (List.isChain_pair.mpr fun _ => rfl)
    rwa [← List.append_assoc] at chained
  plain := put_plain (put_plain paced.plain _ _ rfl) _ _ rfl
  inside := inside_put (inside_put paced.inside _ _ _) _ _ _

/-- Frame by frame, sync points stay near. -/
theorem Paced.putFrame (paced : draft.Paced headers) (booked : draft.Booked headers)
    (agree : headers.Agree) (limited : headers.main.maxDistance ≤ maxDistanceLimit)
    (admits : headers.Admits stream pts) (payload : Bytes) :
    (draft.putFrame headers stream pts payload).Paced headers := by
  obtain ⟨header, found⟩ := admits.header
  rw [putFrame_eq found]
  unfold Draft.prepared
  split
  · exact paced.putSynced header stream pts payload
  · rename_i unneeded
    exact paced.putRecord booked agree limited found admits unneeded

theorem Paced.putWrites (paced : draft.Paced headers) (booked : draft.Booked headers)
    (agree : headers.Agree) (limited : headers.main.maxDistance ≤ maxDistanceLimit)
    {writes : List FrameWrite}
    (admits : ∀ write ∈ writes, headers.Admits write.stream write.pts) :
    (draft.putWrites headers writes).Paced headers := by
  suffices both : (draft.putWrites headers writes).Booked headers ∧
      (draft.putWrites headers writes).Paced headers from both.2
  refine List.foldlRecOn (motive := fun draft : Draft => draft.Booked headers ∧ draft.Paced headers)
    writes _ ⟨booked, paced⟩ ?_
  rintro draft ⟨booked, paced⟩ write member
  exact ⟨booked.putFrame write.stream write.pts write.payload,
    paced.putFrame booked agree limited (admits write member) write.payload⟩

end Draft

/-- Headers that are derived have a distance between sync points that the format allows. -/
theorem HeaderPlan.maxDistance_of_build {plan : HeaderPlan} {streams : List StreamDescriptor}
    {headers : Headers} (built : plan.build streams = .ok headers) :
    0 < headers.main.maxDistance ∧ headers.main.maxDistance ≤ maxDistanceLimit := by
  obtain ⟨_, _, main⟩ := build_ok built
  rw [main]
  change 0 < plan.maxDistance ∧ plan.maxDistance ≤ maxDistanceLimit
  unfold build at built
  split at built
  · cases built
  · obtain ⟨_, checked, _⟩ := except_bind_ok.mp built
    unfold checkMaxDistance at checked
    split at checked
    · cases checked
    · rename_i fits
      obtain ⟨positive, limited⟩ := not_or.mp fits
      exact ⟨UInt32.pos_iff_ne_zero.mpr positive, UInt32.not_lt.mp limited⟩

namespace Recording

variable {plan : HeaderPlan} {streams : List StreamDescriptor} {headers : Headers}
  {before after : Recording} {writes : List FrameWrite} {sizes : List Nat}

/-- Whatever frames are written, and wherever: what is laid down begins with a sync point, every
frame but the first one behind a sync point ends less than the greatest distance behind the
beginning of that sync point, and so two consecutive sync points are less than that distance
apart or have exactly one frame between them. -/
theorem sync_points_spaced (built : plan.build streams = .ok headers)
    (fresh : before.ledger = .empty headers.streams.length)
    (wrote : writeFrames headers writes before = .ok sizes after) :
    ∃ (laid : Bytes) (body : List Placed),
      before.output.Adds laid after.output ∧
      Contents.readBody? headers false before.output.sink.position laid = some body ∧
      Contents.frames ⟨headers, body⟩ = writes.map FrameWrite.record ∧
      (∀ first rest, body = first :: rest → first.isSync) ∧
      Contents.Spaced headers.main.maxDistance.toNat after.output.sink.position body ∧
      ∀ front point between other back, body = front ++ point :: (between ++ other :: back) →
        point.isSync → other.isSync → (∀ placed ∈ between, placed.isSync = false) →
          other.offset < point.offset + headers.main.maxDistance.toNat ∨
            ∃ record, between = [record] ∧ record.isFrame := by
  have agree := HeaderPlan.agree_of_build built
  obtain ⟨_, limited⟩ := HeaderPlan.maxDistance_of_build built
  obtain ⟨front, laid, draft, _, same, admits, _, follows, _, adds, read⟩ :=
    writeFrames_ok agree fresh wrote
  have frames : Contents.frames ⟨headers, draft.body⟩ = writes.map FrameWrite.record := by
    rw [same, Draft.frames_putWrites _ admits]
    rfl
  have paced : draft.Paced headers := by
    rw [same]
    exact (Draft.paced_blank headers front).putWrites (Draft.booked_empty headers _ front) agree
      limited admits
  refine ⟨laid, draft.body, adds, read, frames, ?_, ?_, ?_⟩
  · intro first rest split
    by_contra other
    have plain := paced.plain first (by simp [split])
    have frame := Contents.isFrame_of_plain plain (by simpa using other)
    have split : draft.body = [] ++ first :: rest := split
    cases Contents.synced_of_readBody? read split frame
  · rw [follows.position]
    exact paced.spaced
  · intro front point between other back split first second none_between
    exact paced.spaced.consecutive paced.followed paced.plain split first second none_between

theorem sync_points_spaced_sample :
    ∃ (after : Recording) (laid : Bytes) (body : List Placed),
      (samplePlan 64).build [.audio 0 1000 48000 1] = .ok (sampleHeaders 64) ∧
      writeFrames (sampleHeaders 64) sampleWrites (.fresh .memory 1) = .ok [10, 10, 10, 9] after ∧
      Contents.readBody? (sampleHeaders 64) false 0 laid = some body ∧
      Contents.frames ⟨sampleHeaders 64, body⟩ = sampleWrites.map FrameWrite.record ∧
      Contents.Spaced 64 after.output.sink.position body := by
  have built : (samplePlan 64).build [.audio 0 1000 48000 1] = .ok (sampleHeaders 64) := rfl
  obtain ⟨after, wrote⟩ := Act.value_eq_some.mp (show EStateM.run'
    (writeFrames (sampleHeaders 64) sampleWrites) (.fresh .memory 1) = some [10, 10, 10, 9] by
      decide +kernel)
  obtain ⟨laid, body, _, read, frames, _, spaced, _⟩ := sync_points_spaced built rfl wrote
  exact ⟨after, laid, body, built, wrote, read, frames, spaced⟩

end Recording

end NutContainer
