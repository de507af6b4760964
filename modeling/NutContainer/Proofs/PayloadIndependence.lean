import NutContainer.Proofs.Deliveries
import NutContainer.Proofs.SyncpointSpacing

/-! What the bytes of payloads have no part in. The buffer looks at times and numbers, sync points
are a matter of lengths, the checksum of a frame is taken of its header alone, and the index knows
only positions and times. So two sessions that are given the same streams and times and payloads
of the same lengths leave files that are laid out alike, byte for byte but for the payloads
themselves. -/
namespace NutContainer

namespace WaitingFrame

/-- All that a frame shows of itself but its payload's bytes. -/
def outline (frame : WaitingFrame) : UInt32 × Int × Nat :=
  (frame.stream, frame.pts, frame.payload.length)

/-- The frame with nothing but zeros in its payload. -/
def muted (frame : WaitingFrame) : WaitingFrame :=
  { frame with payload := List.replicate frame.payload.length 0 }

theorem outline_of_muted {frame other : WaitingFrame} (same : other.muted = frame.muted) :
    other.outline = frame.outline := by
  have size : (muted other).payload.length = (muted frame).payload.length := by rw [same]
  obtain ⟨stream, pts, _⟩ := WaitingFrame.mk.injEq .. ▸ same
  rw [muted, muted, List.length_replicate, List.length_replicate] at size
  rw [outline, outline, stream, pts, size]

theorem insertInto_muted (frame : WaitingFrame) (line : List WaitingFrame) :
    insertInto frame.muted (line.map muted) = (insertInto frame line).map muted := by
  induction line with
  | nil => rfl
  | cons first rest ih =>
    by_cases earlier : frame.Precedes first
    · have still : frame.muted.Precedes first.muted := earlier
      simp [insertInto, earlier, still]
    · have still : ¬ frame.muted.Precedes first.muted := earlier
      simp [insertInto, earlier, still, ih]

theorem tally_muted (frames : List WaitingFrame) : tally (frames.map muted) = tally frames :=
  List.foldl_map

end WaitingFrame

namespace OrderingBuffer

open WaitingFrame

/-- The buffer with muted frames. -/
def muted (buffer : OrderingBuffer) : OrderingBuffer :=
  { buffer with frames := buffer.frames.map WaitingFrame.muted }

variable {buffer : OrderingBuffer}

theorem push_muted (buffer : OrderingBuffer) (frame : WaitingFrame) :
    buffer.muted.push frame.muted.stream frame.muted.pts frame.muted.millis frame.muted.payload =
      (buffer.push frame.stream frame.pts frame.millis frame.payload).muted := by
  have placed := insertInto_muted
    ⟨frame.stream, frame.pts, frame.millis, buffer.arrivals, frame.payload⟩ buffer.frames
  simp only [OrderingBuffer.push, OrderingBuffer.muted, ← placed]
  rfl

theorem popReady?_muted (buffer : OrderingBuffer) : buffer.muted.popReady? =
    buffer.popReady?.map fun (frame, rest) => (frame.muted, rest.muted) := by
  obtain ⟨window, frames, arrivals, highWater⟩ := buffer
  cases frames with
  | nil => cases highWater <;> rfl
  | cons first rest =>
    cases highWater with
    | none => rfl
    | some top =>
      by_cases ready : IsReady window top first
      · have still : IsReady window top first.muted := ready
        simp [popReady?, OrderingBuffer.muted, ready, still]
      · have still : ¬ IsReady window top first.muted := ready
        simp [popReady?, OrderingBuffer.muted, ready, still]

theorem drainReady_muted (buffer : OrderingBuffer) : buffer.muted.drainReady =
    (buffer.drainReady.1.map WaitingFrame.muted, buffer.drainReady.2.muted) := by
  have pops (count : Nat) (buffer : OrderingBuffer) : popUpTo popReady? count buffer.muted =
      ((popUpTo popReady? count buffer).1.map WaitingFrame.muted,
        (popUpTo popReady? count buffer).2.muted) := by
    induction count generalizing buffer with
    | zero => rfl
    | succ count ih =>
      cases popped : buffer.popReady? with
      | none => simp [popUpTo, popReady?_muted, popped]
      | some next => simp [popUpTo, popReady?_muted, popped, ih]
  have size : buffer.muted.frames.length = buffer.frames.length := List.length_map ..
  rw [drainReady, size]
  exact pops _ _

/-- The buffer lets muted frames go as it would the others. -/
theorem release_muted (window : Nat) (arrived : List WaitingFrame) :
    release window (arrived.map WaitingFrame.muted) =
      ((release window arrived).1.map WaitingFrame.muted, (release window arrived).2.muted) := by
  induction arrived using List.reverseRecOn with
  | nil => rfl
  | append_singleton earlier frame ih =>
    rw [List.map_append, List.map_singleton, release_concat, release_concat, ih, push_muted,
      drainReady_muted, List.map_append]

theorem releaseOrder_muted (window : Nat) (arrived : List WaitingFrame) :
    releaseOrder window (arrived.map WaitingFrame.muted) =
      (releaseOrder window arrived).map WaitingFrame.muted := by
  rw [releaseOrder_eq, releaseOrder_eq, release_muted, List.map_append]
  rfl

end OrderingBuffer

/-- The element with nothing but zeros in its payload. -/
def Element.muted : Element → Element
  | .frame flags stream pts payload => .frame flags stream pts (List.replicate payload.length 0)
  | other => other

/-- How many bytes at the end of the element are a payload. -/
def Element.payloadSize : Element → Nat
  | .frame _ _ _ payload => payload.length
  | _ => 0

def Placed.muted (placed : Placed) : Placed := { placed with element := placed.element.muted }

namespace Contents

/-- This place in a file that ends at `stop` belongs to the payload of some frame. -/
def InPayload (stop : Nat) (body : List Placed) (place : Nat) : Prop :=
  ∃ front placed back, body = front ++ placed :: back ∧
    endBefore stop back ≤ place + placed.element.payloadSize ∧ place < endBefore stop back

/-- The payload of every frame is the last part of it, and there is something in front. -/
def PayloadsLast (file : Bytes) (body : List Placed) : Prop :=
  ∀ front offset flags stream pts payload back,
    body = front ++ ⟨offset, .frame flags stream pts payload⟩ :: back →
      ∃ ahead behind, file = ahead ++ payload ++ behind ∧ offset < ahead.length ∧
        (ahead ++ payload).length = endBefore file.length back

/-- What stands in front of an element's payload is the same in both files. -/
def SameHeads (file other : Bytes) (body : List Placed) : Prop :=
  ∀ front placed back, body = front ++ placed :: back → ∀ place, placed.offset ≤ place →
    place + placed.element.payloadSize < endBefore file.length back → other[place]? = file[place]?

theorem syncpoints_muted (headers : Headers) (body : List Placed) :
    syncpoints ⟨headers, body.map Placed.muted⟩ = syncpoints ⟨headers, body⟩ := by
  rw [syncpoints, syncpoints, List.filterMap_map]
  refine List.filterMap_congr fun placed _ => ?_
  obtain ⟨offset, element⟩ := placed
  cases element with
  | _ => rfl

variable {stop next : Nat} {body : List Placed} {element : Element}

theorem endBefore_le (inside : ∀ placed ∈ body, placed.offset ≤ stop) {front back : List Placed}
    {placed : Placed} (split : body = front ++ placed :: back) : endBefore stop back ≤ stop := by
  cases back with
  | nil => exact Nat.le_refl stop
  | cons first rest => exact inside first (by simp [split])

/-- Payloads stay payloads when one more element is behind them. -/
theorem InPayload.concat {place : Nat} (inside : InPayload stop body place) :
    InPayload next (body ++ [⟨stop, element⟩]) place := by
  obtain ⟨front, placed, back, rfl, starts, stops⟩ := inside
  refine ⟨front, placed, back ++ [⟨stop, element⟩], by simp, ?_, ?_⟩
  · rwa [endBefore_concat]
  · rwa [endBefore_concat]

/-- The end of the newest element is its payload. -/
theorem inPayload_newest {place : Nat} (starts : next ≤ place + element.payloadSize)
    (stops : place < next) : InPayload next (body ++ [⟨stop, element⟩]) place :=
  ⟨body, ⟨stop, element⟩, [], rfl, starts, stops⟩

end Contents

namespace Draft

variable {headers : Headers} {draft first second : Draft} {stream : UInt32} {pts : Nat}

/-- Payloads are found where they were put. -/
def Holding (draft : Draft) : Prop := Contents.PayloadsLast draft.bytes draft.body

theorem opened_holding (headers : Headers) : (opened headers).Holding := by
  intro front offset flags stream pts payload back split
  simp [opened] at split

theorem Holding.put (holding : draft.Holding) {bytes : Bytes} {element : Element}
    (last : ∀ flags stream pts payload, element = .frame flags stream pts payload →
      ∃ ahead, bytes = ahead ++ payload ∧ 0 < ahead.length) (ledger : Ledger) :
    (draft.put ledger bytes element).Holding := by
  intro front offset flags stream pts payload back split
  obtain ⟨rfl, same, rfl⟩ | ⟨ahead, rfl, same⟩ := split_concat split
  · cases same
    obtain ⟨ahead, rfl, filled⟩ := last _ _ _ _ rfl
    refine ⟨draft.bytes ++ ahead, [], by simp [Draft.put], ?_, ?_⟩
    · rw [List.length_append]
      exact Nat.lt_add_of_pos_right filled
    · simp [Draft.put, Contents.endBefore]
  · obtain ⟨before, behind, whole, filled, ends⟩ := holding _ _ _ _ _ _ _ same
    refine ⟨before, behind ++ bytes, by simp [Draft.put, whole], filled, ?_⟩
    rw [Contents.endBefore_concat]
    exact ends

theorem Holding.putFrame (holding : draft.Holding) (payload : Bytes) :
    (draft.putFrame headers stream pts payload).Holding := by
  refine putFrame_induct Holding payload holding ?_ ?_
  · refine holding.put ?_ _
    rintro _ _ _ _ ⟨⟩
  · intro header before _ _ holding
    refine holding.put ?_ _
    rintro _ _ _ _ ⟨⟩
    refine ⟨_, rfl, ?_⟩
    simp [FrameRecord.header, Bytes.ofWord32]

theorem Holding.putFrames (holding : draft.Holding) (frames : List WaitingFrame) :
    (draft.putFrames headers frames).Holding :=
  List.foldlRecOn frames _ holding fun _ holding frame _ => holding.putFrame frame.payload

theorem Holding.ended (holding : draft.Holding) (headers : Headers) (writeIndex : Bool) :
    (draft.ended headers writeIndex).Holding := by
  unfold Draft.ended putIndex
  split
  · split
    · exact holding
    · refine holding.put ?_ _
      rintro _ _ _ _ ⟨⟩
  · exact holding

/-- The two files are laid out in the same way and differ in the bytes of payloads at most. -/
structure Alike (first second : Draft) : Prop where
  ledger : second.ledger = first.ledger
  length : second.bytes.length = first.bytes.length
  body : second.body.map Placed.muted = first.body.map Placed.muted
  heads : Contents.SameHeads first.bytes second.bytes first.body
  differ : ∀ place, second.bytes[place]? ≠ first.bytes[place]? →
    Contents.InPayload first.bytes.length first.body place
  inside : ∀ placed ∈ first.body, placed.offset ≤ first.bytes.length

theorem alike_opened (headers : Headers) : Alike (opened headers) (opened headers) where
  ledger := rfl
  length := rfl
  body := rfl
  heads _ _ _ _ _ _ _ := rfl
  differ _ different := absurd rfl different
  inside := by simp [opened]

/-- Elements that differ in their payloads keep two files alike. -/
theorem Alike.put (alike : Alike first second) {bytes other : Bytes} {element twin : Element}
    (size : other.length = bytes.length) (outline : twin.muted = element.muted)
    (same : ∀ place, place + element.payloadSize < bytes.length → other[place]? = bytes[place]?)
    (ledger : Ledger) : Alike (first.put ledger bytes element) (second.put ledger other twin) := by
  have length := alike.length
  have before (place : Nat) (inside : place < first.bytes.length) :
      (second.bytes ++ other)[place]? = second.bytes[place]? ∧
        (first.bytes ++ bytes)[place]? = first.bytes[place]? :=
    ⟨List.getElem?_append_left (length.symm ▸ inside), List.getElem?_append_left inside⟩
  have behind (place : Nat) (outside : first.bytes.length ≤ place)
      (head : place + element.payloadSize < (first.bytes ++ bytes).length) :
      (second.bytes ++ other)[place]? = (first.bytes ++ bytes)[place]? := by
    rw [List.length_append] at head
    rw [List.getElem?_append_right (length.symm ▸ outside), List.getElem?_append_right outside, length]
    exact same _ (by omega)
  refine ⟨rfl, by simp [Draft.put, length, size], ?_, ?_, ?_, inside_put alike.inside _ _ _⟩
  · simp [Draft.put, alike.body, length, outline, Placed.muted]
  · intro front placed back split place starts stops
    obtain ⟨rfl, rfl, rfl⟩ | ⟨ahead, rfl, old⟩ := split_concat split
    · exact behind place starts stops
    · rw [Contents.endBefore_concat] at stops
      have inside : place < first.bytes.length := by
        have ends := Contents.endBefore_le alike.inside old
        omega
      obtain ⟨one, two⟩ := before place inside
      exact one.trans ((alike.heads _ _ _ old place starts stops).trans two.symm)
  · intro place different
    by_cases inside : place < first.bytes.length
    · obtain ⟨one, two⟩ := before place inside
      refine (alike.differ place fun equal => different ?_).concat
      exact one.trans (equal.trans two.symm)
    · have outside := Nat.le_of_not_lt inside
      refine Contents.inPayload_newest ?_ ?_
      · by_contra head
        exact different (behind place outside (Nat.lt_of_not_le head))
      · -- Behind the last byte, there is nothing in either file.
        by_contra beyond
        have outside := Nat.le_of_not_lt beyond
        refine different ((List.getElem?_eq_none ?_).trans (List.getElem?_eq_none outside).symm)
        simpa [Draft.put, length, size] using outside

/-- A sync point says nothing of the payloads before it. -/
theorem Alike.putSyncpoint (alike : Alike first second) :
    Alike (first.putSyncpoint headers stream pts) (second.putSyncpoint headers stream pts) := by
  have back : second.back = first.back := by
    rw [Draft.back, Draft.back, alike.ledger, alike.length]
  rw [Draft.putSyncpoint, Draft.putSyncpoint, alike.ledger, alike.length, back]
  exact alike.put rfl rfl (fun _ _ => rfl) _

/-- The header of a frame says nothing of its payload but the length. -/
theorem Alike.putRecord (alike : Alike first second) {payload other : Bytes}
    (size : other.length = payload.length) (header : StreamHeader) :
    Alike (first.putRecord headers header stream pts payload)
      (second.putRecord headers header stream pts other) := by
  rw [Draft.putRecord, Draft.putRecord, alike.ledger]
  refine alike.put ?_ ?_ ?_ _
  · simp [FrameRecord.encode, size]
  · simp [Element.ofFrame, Element.muted, size]
  · intro place head
    have inside : place < (FrameRecord.header header
        (headers.main.frameCodes.get FrameCodeTable.genericCode) pts payload.length).length := by
      rw [FrameRecord.encode, List.length_append] at head
      exact Nat.lt_of_add_lt_add_right head
    rw [FrameRecord.encode, FrameRecord.encode, size, List.getElem?_append_left inside,
      List.getElem?_append_left inside]

theorem Alike.putFrame (alike : Alike first second) {payload other : Bytes}
    (size : other.length = payload.length) :
    Alike (first.putFrame headers stream pts payload) (second.putFrame headers stream pts other) := by
  cases found : headers.stream? stream with
  | none =>
    rw [Draft.putFrame, Draft.putFrame, found]
    exact alike
  | some header =>
    rw [putFrame_eq found, putFrame_eq found]
    apply Alike.putRecord _ size
    rw [prepared, prepared, alike.ledger, alike.length, size]
    split
    · exact alike.putSyncpoint
    · exact alike

/-- Frames that differ in the bytes of their payloads keep two files alike. -/
theorem Alike.putFrames (alike : Alike first second) {frames others : List WaitingFrame}
    (same : others.map WaitingFrame.muted = frames.map WaitingFrame.muted) :
    Alike (first.putFrames headers frames) (second.putFrames headers others) := by
  induction frames generalizing others first second with
  | nil =>
    obtain rfl := List.map_eq_nil_iff.mp same
    exact alike
  | cons frame rest ih =>
    obtain ⟨other, more, rfl, one, tail⟩ := List.map_eq_cons_iff.mp same
    have outline := WaitingFrame.outline_of_muted one
    simp only [WaitingFrame.outline, Prod.mk.injEq] at outline
    obtain ⟨stream, pts, size⟩ := outline
    have next : Alike (first.putFrame headers frame.stream frame.pts.toNat frame.payload)
        (second.putFrame headers other.stream other.pts.toNat other.payload) := by
      rw [stream, pts]
      exact alike.putFrame size
    exact ih next tail

/-- Nor does the index. -/
theorem Alike.ended (alike : Alike first second) (headers : Headers) (writeIndex : Bool) :
    Alike (first.ended headers writeIndex) (second.ended headers writeIndex) := by
  unfold Draft.ended putIndex
  rw [alike.ledger]
  split
  · split
    · exact alike
    · exact alike.put rfl rfl (fun _ _ => rfl) _
  · exact alike

end Draft

namespace Session

variable {format : ImageFormat} {options : Options} {policy otherPolicy : Sink.Policy}
  {initial other final otherFinal : Session} {streams : List StreamDescriptor}
  {feeds otherFeeds : List Call} {summary otherSummary : Summary}
  {arrived otherArrived : List WaitingFrame}

/-- A file begins with its headers. -/
theorem Closed.opening {headers : Headers} (agree : headers.Agree)
    (closed : Closed initial headers arrived summary final) : headers.opening <+: final.file := by
  have sound := (Draft.opened_sound headers).putFrames agree
    fun frame member => (closed.writable frame member).2
  obtain ⟨laid, spelled, _⟩ := (sound.ended agree initial.options.writeIndex).spelled
  rw [closed.file]
  exact ⟨laid, spelled.symm⟩

theorem Closed.holding {headers : Headers} (closed : Closed initial headers arrived summary final) :
    Contents.PayloadsLast final.file (initial.layout headers arrived).body := by
  rw [closed.file]
  exact ((Draft.opened_holding headers).putFrames _).ended headers initial.options.writeIndex

/-- Frames of the same outline, each numbered by its place, get the same milliseconds from the same
headers. -/
theorem muted_of_outline {headers : Headers}
    (outline : otherArrived.map WaitingFrame.outline = arrived.map WaitingFrame.outline)
    (numbered : WaitingFrame.Numbered arrived) (otherNumbered : WaitingFrame.Numbered otherArrived)
    (placed : ∀ frame ∈ arrived, placement headers frame.stream frame.pts = .ok frame.millis)
    (otherPlaced : ∀ frame ∈ otherArrived,
      placement headers frame.stream frame.pts = .ok frame.millis) :
    otherArrived.map WaitingFrame.muted = arrived.map WaitingFrame.muted := by
  have length : otherArrived.length = arrived.length := by
    simpa using congrArg List.length outline
  refine List.ext_getElem (by simp [length]) fun place inside within => ?_
  rw [List.length_map] at inside within
  have same := List.getElem_of_eq outline (by simpa using inside)
  simp only [List.getElem_map, WaitingFrame.outline, Prod.mk.injEq] at same ⊢
  obtain ⟨stream, pts, size⟩ := same
  have number := numbered place _ (List.getElem?_eq_getElem within)
  have otherNumber := otherNumbered place _ (List.getElem?_eq_getElem inside)
  have millis := otherPlaced _ (List.getElem_mem inside)
  rw [stream, pts, placed _ (List.getElem_mem within)] at millis
  have millis := Except.ok.inj millis
  simp only [WaitingFrame.muted, stream, pts, size, ← millis, number, otherNumber]

/-- Two sessions with the same streams and options, given frames of the same streams, times and
payload lengths, leave files of the same length with the same headers and the same elements at the
same places. In front of its payload, every element is the same byte for byte, and every byte that
is not the same belongs to a payload. The summaries are equal. -/
theorem file_layout_independent_of_payload_bytes
    (started : start format options policy = .ok initial)
    (otherStarted : start format options otherPolicy = .ok other)
    (delivers : initial.Delivers streams feeds summary final)
    (otherDelivers : other.Delivers streams otherFeeds otherSummary otherFinal)
    (taken : final.arrivals feeds = arrived)
    (otherTaken : otherFinal.arrivals otherFeeds = otherArrived)
    (outline : otherArrived.map WaitingFrame.outline = arrived.map WaitingFrame.outline) :
    arrived.length = feeds.length ∧ otherArrived.length = otherFeeds.length ∧
    ∃ contents otherContents : Contents,
      Contents.read? final.file = some contents ∧
      Contents.read? otherFinal.file = some otherContents ∧
      otherFinal.file.length = final.file.length ∧
      otherContents.headers = contents.headers ∧
      contents.headers.opening <+: final.file ∧
      contents.headers.opening <+: otherFinal.file ∧
      otherContents.body.map Placed.muted = contents.body.map Placed.muted ∧
      otherContents.syncpoints = contents.syncpoints ∧
      Contents.SameHeads final.file otherFinal.file contents.body ∧
      Contents.PayloadsLast final.file contents.body ∧
      Contents.PayloadsLast otherFinal.file otherContents.body ∧
      (∀ place, otherFinal.file[place]? ≠ final.file[place]? →
        Contents.InPayload final.file.length contents.body place) ∧
      otherSummary = summary := by
  subst taken otherTaken
  obtain ⟨headers, _, built, count, running, closed, placed⟩ := delivers.closed started
  obtain ⟨_, _, otherBuilt, otherCount, otherRunning, otherClosed, otherPlaced⟩ :=
    otherDelivers.closed otherStarted
  obtain ⟨_, rfl⟩ := start_ok.mp started
  obtain ⟨_, rfl⟩ := start_ok.mp otherStarted
  cases built.symm.trans otherBuilt
  have agree := HeaderPlan.agree_of_build built
  have muted := muted_of_outline outline running.numbered otherRunning.numbered placed otherPlaced
  have order : (OrderingBuffer.releaseOrder options.windowMillis (otherFinal.arrivals otherFeeds)).map
      WaitingFrame.muted = (OrderingBuffer.releaseOrder options.windowMillis
        (final.arrivals feeds)).map WaitingFrame.muted := by
    rw [← OrderingBuffer.releaseOrder_muted, muted, OrderingBuffer.releaseOrder_muted]
  have alike : (layout (fresh format options policy) headers (final.arrivals feeds)).Alike
      (layout (fresh format options otherPolicy) headers (otherFinal.arrivals otherFeeds)) :=
    ((Draft.alike_opened headers).putFrames order).ended headers options.writeIndex
  refine ⟨count, otherCount, _, _, closed.read? agree, otherClosed.read? agree, ?_, rfl,
    closed.opening agree, otherClosed.opening agree, alike.body, ?_, ?_, closed.holding,
    otherClosed.holding, ?_, ?_⟩
  · rw [closed.file, otherClosed.file, alike.length]
  · rw [← Contents.syncpoints_muted, alike.body, Contents.syncpoints_muted]
  · rw [closed.file, otherClosed.file]
    exact alike.heads
  · rw [closed.file, otherClosed.file]
    exact alike.differ
  · have late := WaitingFrame.tally_muted
      (OrderingBuffer.releaseOrder options.windowMillis (otherFinal.arrivals otherFeeds))
    rw [order, WaitingFrame.tally_muted] at late
    rw [closed.summed, otherClosed.summed, Draft.summary, Draft.summary, alike.ledger, alike.length]
    exact congrArg (fun tally => Summary.mk _ _ _ _ _ (Prod.snd tally)) late.symm

/-- Frames of the same outline as those of the interrupted history, with other bytes. The first one
has a startcode in its payload. -/
def otherwiseFeeds : List Call :=
  [.accept 0 20 [0x4E, 0x4B, 0xE4, 0xAD], .accept 0 40 [8], .accept 0 5 []]

def otherwiseArrived : List WaitingFrame :=
  [⟨0, 20, 20, 0, [0x4E, 0x4B, 0xE4, 0xAD]⟩, ⟨0, 40, 40, 1, [8]⟩, ⟨0, 5, 5, 2, []⟩]

theorem file_layout_independent_of_payload_bytes_sample :
    ∃ (final otherFinal : Session) (contents : Contents),
      sample.Delivers sampleStreams interruptedFeeds interruptedSummary final ∧
      sample.Delivers sampleStreams otherwiseFeeds interruptedSummary otherFinal ∧
      otherwiseArrived.map WaitingFrame.outline = interruptedArrived.map WaitingFrame.outline ∧
      Contents.read? final.file = some contents ∧
      otherFinal.file.length = final.file.length ∧
      Contents.SameHeads final.file otherFinal.file contents.body ∧
      ∀ place, otherFinal.file[place]? ≠ final.file[place]? →
        Contents.InPayload final.file.length contents.body place := by
  have outline : otherwiseArrived.map WaitingFrame.outline =
      interruptedArrived.map WaitingFrame.outline := rfl
  obtain ⟨final, delivers, taken⟩ := interrupted_delivers
  have otherDelivers : sample.Delivers sampleStreams otherwiseFeeds interruptedSummary
      (sample.run (.writeHeaders sampleStreams :: otherwiseFeeds ++ [.close])).2 :=
    ⟨_, .ok none :: otherwiseFeeds.map fun _ => .ok none, run_of_outcomes (by decide +kernel),
      by decide, rfl, rfl⟩
  have otherTaken : (sample.run (.writeHeaders sampleStreams :: otherwiseFeeds ++ [.close])).2.arrivals
      otherwiseFeeds = otherwiseArrived := by decide +kernel
  obtain ⟨_, _, contents, _, read, _, length, _, _, _, _, _, heads, _, _, differ, _⟩ :=
    file_layout_independent_of_payload_bytes (start_ok.mpr ⟨rfl, rfl⟩) (start_ok.mpr ⟨rfl, rfl⟩)
      delivers otherDelivers taken otherTaken outline
  exact ⟨final, _, contents, delivers, otherDelivers, outline, read, length, heads, differ⟩

end Session

end NutContainer
