import NutContainer.Proofs.Bookkeeping
import NutContainer.Proofs.SessionOutput

/-! The index of a closed file, found from its end. The last eight bytes in front of the last
checksum say how far back the index begins. That number is computed before the index is written,
from the size that its packet will have, so it has to agree with what is then written at every
length of the packet. Behind it stand the sync points of the file, all of them and in file
order, as distances none of which is zero. -/
namespace NutContainer

namespace Draft

variable {headers : Headers} {draft : Draft} {stream : UInt32} {pts : Nat}

/-- At each of these positions, the bytes go on with the packet of a sync point. -/
def Pointed (draft : Draft) : Prop :=
  ∀ position ∈ draft.ledger.syncpoints, ∃ payload rest,
    draft.bytes.drop position = Packet.encode ⟨Startcode.syncpoint, payload⟩ ++ rest

theorem opened_pointed (headers : Headers) : (opened headers).Pointed := by
  intro position member
  cases member

/-- What is laid down behind a packet leaves it where it is. -/
theorem Pointed.put (pointed : draft.Pointed) {ledger : Ledger}
    (same : ledger.syncpoints = draft.ledger.syncpoints) (bytes : Bytes) (element : Element) :
    (draft.put ledger bytes element).Pointed := by
  intro position member
  change position ∈ ledger.syncpoints at member
  rw [same] at member
  obtain ⟨payload, rest, stands⟩ := pointed position member
  exact ⟨payload, rest ++ bytes, drop_append_of_stands (Packet.encode_pos _) stands bytes⟩

theorem Pointed.putSyncpoint (pointed : draft.Pointed) :
    (draft.putSyncpoint headers stream pts).Pointed := by
  intro position member
  rw [Draft.putSyncpoint, Draft.put, Ledger.syncpoints_addSyncpoint] at member
  rcases List.mem_append.mp member with old | new
  · exact pointed.put rfl _ (.syncpoint pts stream.toNat draft.back) position old
  · cases List.mem_singleton.mp new
    refine ⟨(Recording.syncpoint draft.ledger headers.clockCount stream pts
      draft.bytes.length).payload, [], ?_⟩
    rw [Draft.putSyncpoint, Draft.put, List.drop_left, List.append_nil]
    rfl

theorem Pointed.putFrame (pointed : draft.Pointed) (payload : Bytes) :
    (draft.putFrame headers stream pts payload).Pointed :=
  putFrame_induct Pointed payload pointed pointed.putSyncpoint
    fun _ _ _ _ pointed => pointed.put (Ledger.syncpoints_addFrame ..) _ _

theorem Pointed.putFrames (pointed : draft.Pointed) (frames : List WaitingFrame) :
    (draft.putFrames headers frames).Pointed :=
  List.foldlRecOn frames _ pointed fun _ pointed frame _ => pointed.putFrame frame.payload

theorem Pointed.putIndex (pointed : draft.Pointed) (headers : Headers) :
    (draft.putIndex headers).Pointed := by
  unfold Draft.putIndex
  split
  · exact pointed
  · exact pointed.put rfl _ _

theorem begun_putFrames {frames : List WaitingFrame} (some_frames : frames ≠ [])
    (admits : ∀ frame ∈ frames, headers.Admits frame.stream frame.pts.toNat) :
    (draft.putFrames headers frames).ledger.intervals ≠ [] := by
  rw [putFrames_eq]
  exact begun_putWrites (by simpa using some_frames) (List.forall_mem_map.mpr admits)

section
variable (begun : draft.ledger.intervals ≠ [])
include begun

/-- In front of the last checksum stands how long the index is. -/
theorem pointer_putIndex :
    Bytes.word64? ((draft.putIndex headers).bytes.drop ((draft.putIndex headers).bytes.length - 12)) =
      some (UInt64.ofNat ((draft.putIndex headers).bytes.length - draft.bytes.length),
        (Index.packet draft.ledger headers.clockCount).trailer) := by
  let packet := Index.packet draft.ledger headers.clockCount
  have behind : (draft.putIndex headers).bytes.length - draft.bytes.length =
      packet.encode.length := by
    rw [putIndex_eq begun, put, List.length_append, Nat.add_sub_cancel_left]
  obtain ⟨front, split⟩ : ∃ front, (draft.putIndex headers).bytes =
      front ++ (Bytes.ofNat 8 packet.encode.length ++ packet.trailer) := by
    refine ⟨draft.bytes ++ packet.header ++
      Field.encodeAll (Index.fields draft.ledger headers.clockCount), ?_⟩
    rw [putIndex_eq begun, put, Packet.length_encode]
    simp [packet, Packet.encode, Index.packet, Index.totalSize]
  have tail : (Bytes.ofNat 8 packet.encode.length ++ packet.trailer).length = 12 := by
    rw [List.length_append, Bytes.length_ofNat, Packet.trailer, Bytes.ofWord32, Bytes.length_ofNat]
  rw [behind, split, List.length_append, tail, Nat.add_sub_cancel, List.drop_left]
  exact Index.word64?_ofNat _ _

/-- The index is the rest of the file. -/
theorem packet_putIndex :
    Packet.read? ((draft.putIndex headers).bytes.drop draft.bytes.length) =
      some (Index.packet draft.ledger headers.clockCount, []) := by
  have read := Packet.read?_encode_append (Index.packet draft.ledger headers.clockCount) []
  rw [putIndex_eq begun, put, List.drop_left]
  rwa [List.append_nil] at read

theorem index?_putIndex (plain : ∀ placed ∈ draft.body, placed.element.isIndex = false) :
    Contents.index? ⟨headers, (draft.putIndex headers).body⟩ =
      some (draft.bytes.length, Index.contents draft.ledger headers.clockCount) := by
  have none_before : Contents.index? ⟨headers, draft.body⟩ = none := by
    apply List.findSome?_eq_none_iff.mpr
    intro placed member
    have other := plain placed member
    cases element : placed.element with
    | syncpoint pts clock back => rfl
    | frame flags stream pts payload => rfl
    | index contents => simp [element, Element.isIndex] at other
  rw [putIndex_eq begun, put, Contents.index?, List.findSome?_append]
  change (Contents.index? ⟨headers, draft.body⟩).or _ = _
  rw [none_before]
  rfl

theorem Booked.points_putIndex (booked : draft.Booked headers) :
    Contents.syncpoints ⟨headers, (draft.putIndex headers).body⟩ = draft.ledger.syncpoints := by
  rw [putIndex_eq begun, put, Contents.syncpoints_concat, booked.points]
  exact List.append_nil _

end

/-- All that is known of a file with frames when its index is laid down. -/
structure Indexable (headers : Headers) (draft : Draft) : Prop where
  agree : headers.Agree
  sound : draft.Sound headers
  booked : draft.Booked headers
  pointed : draft.Pointed
  begun : draft.ledger.intervals ≠ []
  plain : ∀ placed ∈ draft.body, placed.element.isIndex = false

theorem indexable_putFrames (agree : headers.Agree) {frames : List WaitingFrame}
    (some_frames : frames ≠ [])
    (admits : ∀ frame ∈ frames, headers.Admits frame.stream frame.pts.toNat) :
    ((opened headers).putFrames headers frames).Indexable headers where
  agree := agree
  sound := (opened_sound headers).putFrames agree admits
  booked := (booked_empty headers headers.streams.length headers.opening).putFrames frames
  pointed := (opened_pointed headers).putFrames frames
  begun := begun_putFrames some_frames admits
  plain := putFrames_plain frames (by simp [opened])

/-- The payload of the index is read back. -/
theorem Indexable.read? (indexable : draft.Indexable headers) :
    Index.read? headers.clockCount headers.streams.length
      (Index.packet draft.ledger headers.clockCount).payload =
        some (Index.contents draft.ledger headers.clockCount) := by
  rw [← indexable.sound.counted]
  exact Index.read?_packet (indexable.sound.latestCodable indexable.agree indexable.begun)
    indexable.sound.ascending

end Draft

namespace Session

variable {format : ImageFormat} {options : Options} {policy : Sink.Policy} {initial final : Session}
  {feeds : List Call} {summary : Summary}

/-- The file of a session that has finished with some frames and an index. -/
theorem Finishes.indexed (finishes : initial.Finishes feeds summary final)
    (started : start format options policy = .ok initial) (asked : options.writeIndex = true)
    (fed : feeds ≠ []) : ∃ (headers : Headers) (draft : Draft), draft.Indexable headers ∧
      final.file = (draft.putIndex headers).bytes ∧
      Contents.read? final.file = some ⟨headers, (draft.putIndex headers).body⟩ := by
  obtain ⟨streams, completes⟩ := finishes.completes
  obtain ⟨headers, reached, built, count, running, closed⟩ := completes.closed started
  have agree := HeaderPlan.agree_of_build built
  have read := closed.read? agree
  have file := closed.file
  rw [layout, start_options started, asked] at read file
  have admits : ∀ frame ∈ OrderingBuffer.releaseOrder options.windowMillis (final.arrivals feeds),
      headers.Admits frame.stream frame.pts.toNat := by
    intro frame member
    rw [← start_options started] at member
    exact (closed.writable frame member).2
  have released : OrderingBuffer.releaseOrder options.windowMillis (final.arrivals feeds) ≠ [] := by
    intro none
    have all := (OrderingBuffer.releaseOrder_perm options.windowMillis running.numbered).length_eq
    rw [none, count] at all
    exact fed (List.length_eq_zero_iff.mp all.symm)
  exact ⟨headers, _, Draft.indexable_putFrames agree released admits, file, read⟩

/-- A closed file with an index leads to it from its end, whether it was made call by call or at
once. The last number in front of the last checksum is the distance from the beginning of the index
to the end of the file; there stands a packet that is the index and the rest of the file; and what
it lists are the positions of all sync points in file order, by distances that are never zero. -/
theorem index_found_from_end (started : start format options policy = .ok initial)
    (finishes : initial.Finishes feeds summary final)
    (asked : options.writeIndex = true) (fed : feeds ≠ []) :
    ∃ (contents : Contents) (offset : Nat) (pointer : UInt64) (checksum : Bytes) (packet : Packet)
      (gaps : List Nat) (rest : Bytes) (index : Index.Contents),
      Contents.read? final.file = some contents ∧
      Bytes.word64? (final.file.drop (final.file.length - 12)) = some (pointer, checksum) ∧
      checksum.length = 4 ∧
      pointer = UInt64.ofNat (final.file.length - offset) ∧
      (final.file.length < UInt64.size → final.file.length - pointer.toNat = offset) ∧
      Packet.read? (final.file.drop offset) = some (packet, []) ∧
      packet.startcode = Startcode.index ∧
      contents.index? = some (offset, index) ∧
      Index.read? contents.headers.clockCount contents.headers.streams.length packet.payload =
        some index ∧
      Index.readGaps? packet.payload = some (gaps, rest) ∧
      (∀ gap ∈ gaps, 0 < gap) ∧
      Index.ofGaps 0 gaps = contents.syncpoints.map (· / Index.unit) ∧
      index.syncpoints = contents.syncpoints.map (· / Index.unit) ∧
      contents.syncpoints ≠ [] ∧
      ∀ point ∈ contents.syncpoints, ∃ payload behind,
        Packet.read? (final.file.drop point) =
          some (⟨Startcode.syncpoint, payload⟩, behind) := by
  obtain ⟨headers, draft, indexable, whole, read⟩ := finishes.indexed started asked fed
  have index := indexable.read?
  obtain ⟨_, sound, booked, pointed, begun, plain⟩ := indexable
  have points : Contents.syncpoints ⟨headers, (draft.putIndex headers).body⟩ =
      draft.ledger.syncpoints := booked.points_putIndex begun
  have places : Index.places draft.ledger =
      (Contents.syncpoints ⟨headers, (draft.putIndex headers).body⟩).map (· / Index.unit) := by
    rw [points, Index.places]
  have trailer : (Index.packet draft.ledger headers.clockCount).trailer.length = 4 := by
    rw [Packet.trailer, Bytes.ofWord32, Bytes.length_ofNat]
  refine ⟨_, draft.bytes.length, _, _, _, Index.gaps 0 (Index.places draft.ledger), _, _, read,
    whole ▸ Draft.pointer_putIndex begun, trailer, by rw [whole], ?_,
    whole ▸ Draft.packet_putIndex begun, rfl, Draft.index?_putIndex begun plain, index,
    Index.readGaps?_packet .., Index.gaps_pos sound.ascending,
    (Index.ofGaps_gaps sound.ascending).trans places, places, ?_, ?_⟩
  · intro short
    have inside : draft.bytes.length ≤ final.file.length := by
      rw [whole, Draft.putIndex_eq begun, Draft.put, List.length_append]
      exact Nat.le_add_right _ _
    rw [whole] at short inside ⊢
    rw [UInt64.toNat_ofNat_of_lt' (by omega)]
    omega
  · rw [points]
    simpa [Ledger.syncpoints] using begun
  · intro point member
    rw [points] at member
    obtain ⟨payload, behind, stands⟩ := pointed.putIndex headers point (by rwa [Draft.putIndex_eq begun])
    refine ⟨payload, behind, ?_⟩
    rw [whole, stands]
    exact Packet.read?_encode_append _ _

theorem index_found_from_end_sample :
    ∃ final, sample.Completes sampleStreams sampleFeeds sampleSummary final ∧
      ∃ (contents : Contents) (offset : Nat) (packet : Packet),
        Contents.read? final.file = some contents ∧
        Packet.read? (final.file.drop offset) = some (packet, []) ∧
        packet.startcode = Startcode.index ∧ contents.syncpoints ≠ [] := by
  obtain ⟨final, completes⟩ : ∃ final,
      sample.Completes sampleStreams sampleFeeds sampleSummary final :=
    ⟨_, completes_run (by decide +kernel)⟩
  obtain ⟨contents, offset, _, _, packet, _, _, _, read, _, _, _, _, found, code, _, _, _, _, _, _,
    points, _⟩ := index_found_from_end (start_ok.mpr ⟨rfl, rfl⟩) (.inl ⟨_, completes⟩) rfl (by decide)
  exact ⟨final, completes, contents, offset, packet, read, found, code, points⟩

end Session

end NutContainer
