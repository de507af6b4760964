import NutContainer.OrderingBuffer
import NutContainer.Proofs.BodyCodec

/-! A file as it is laid out when nothing goes wrong: its bytes, its books and what
a reader will find in it, all as functions of the frames in the order in which they
are written. Sync points are a matter of the bytes laid so far, so the layout is
the same whenever the frames come in the same order, whatever else happened while
they waited. -/
namespace NutContainer

/-- The file has the stream, and the time can be coded on its clock. -/
def Headers.Admits (headers : Headers) (stream : UInt32) (pts : Nat) : Prop :=
  stream.toNat < headers.streams.length ∧
    (codedTime? pts stream.toNat headers.clockCount).isSome

theorem Headers.Admits.clock {headers : Headers} {stream : UInt32} {pts : Nat}
    (admits : headers.Admits stream pts) (agree : headers.Agree) :
    stream.toNat < headers.clockCount := by
  simpa [Headers.clockCount, MainHeader.clockCount, agree.clocks] using admits.1

theorem Headers.Admits.header {headers : Headers} {stream : UInt32} {pts : Nat}
    (admits : headers.Admits stream pts) : ∃ header, headers.stream? stream = some header :=
  ⟨_, List.getElem?_eq_getElem admits.1⟩

/-- A frame as a reader finds it: its stream, its time and its bytes. -/
def WaitingFrame.record (frame : WaitingFrame) : Nat × Nat × Bytes :=
  (frame.stream.toNat, frame.pts.toNat, frame.payload)

/-- A frame that is to be written. -/
structure FrameWrite where
  stream : UInt32
  pts : Nat
  payload : Bytes
  deriving DecidableEq, Repr

/-- A written frame as a reader finds it. -/
def FrameWrite.record (write : FrameWrite) : Nat × Nat × Bytes :=
  (write.stream.toNat, write.pts, write.payload)

/-- What is written of a frame that has waited. -/
def WaitingFrame.write (frame : WaitingFrame) : FrameWrite :=
  ⟨frame.stream, frame.pts.toNat, frame.payload⟩

/-- A file that is being laid out. -/
structure Draft where
  ledger : Ledger
  bytes : Bytes
  /-- What a reader finds behind the headers. -/
  body : List Placed

namespace Draft

/-- A file that has its headers and nothing else. -/
def opened (headers : Headers) : Draft := ⟨.empty headers.streams.length, headers.opening, []⟩

/-- Lays an element down behind the others. -/
def put (draft : Draft) (ledger : Ledger) (bytes : Bytes) (element : Element) : Draft :=
  ⟨ledger, draft.bytes ++ bytes, draft.body ++ [⟨draft.bytes.length, element⟩]⟩

/-- The distance back from the next sync point to the one before. -/
def back (draft : Draft) : Nat :=
  (draft.ledger.lastSyncpoint?.map fun last => (draft.bytes.length - last) / Index.unit).getD 0

def putSyncpoint (headers : Headers) (stream : UInt32) (pts : Nat) (draft : Draft) : Draft :=
  let packet := Recording.syncpoint draft.ledger headers.clockCount stream pts draft.bytes.length
  draft.put (draft.ledger.addSyncpoint draft.bytes.length) packet.encode
    (.syncpoint pts stream.toNat draft.back)

def putRecord (headers : Headers) (header : StreamHeader) (stream : UInt32) (pts : Nat)
    (payload : Bytes) (draft : Draft) : Draft :=
  let code := headers.main.frameCodes.get FrameCodeTable.genericCode
  draft.put (draft.ledger.addFrame headers.main.timeBases stream pts)
    (FrameRecord.encode header code pts payload) (.ofFrame stream pts payload)

/-- The file before a frame's own bytes, with the sync point that the frame needs. -/
def prepared (headers : Headers) (stream : UInt32) (pts size : Nat) (draft : Draft) : Draft :=
  if Recording.needsSyncpoint draft.ledger headers.main.maxDistance draft.bytes.length size then
    draft.putSyncpoint headers stream pts
  else draft

/-- Lays a frame down. Streams that the file does not have leave it as it is. -/
def putFrame (headers : Headers) (stream : UInt32) (pts : Nat) (payload : Bytes) (draft : Draft) :
    Draft :=
  match headers.stream? stream with
  | none => draft
  | some header =>
    (draft.prepared headers stream pts payload.length).putRecord headers header stream pts payload

theorem putFrame_eq {headers : Headers} {stream : UInt32} {header : StreamHeader}
    (found : headers.stream? stream = some header) (pts : Nat) (payload : Bytes) (draft : Draft) :
    draft.putFrame headers stream pts payload =
      (draft.prepared headers stream pts payload.length).putRecord headers header stream pts
        payload := by
  rw [putFrame, found]

/-- Lays frames down one after the other. -/
def putFrames (headers : Headers) (frames : List WaitingFrame) (draft : Draft) : Draft :=
  frames.foldl (fun draft frame => draft.putFrame headers frame.stream frame.pts.toNat frame.payload)
    draft

theorem putFrames_append (headers : Headers) (front back : List WaitingFrame) (draft : Draft) :
    draft.putFrames headers (front ++ back) = (draft.putFrames headers front).putFrames headers back :=
  List.foldl_append

def putWrites (headers : Headers) (writes : List FrameWrite) (draft : Draft) : Draft :=
  writes.foldl (fun draft write => draft.putFrame headers write.stream write.pts write.payload)
    draft

theorem putFrames_eq (headers : Headers) (frames : List WaitingFrame) (draft : Draft) :
    draft.putFrames headers frames = draft.putWrites headers (frames.map WaitingFrame.write) := by
  rw [putWrites, List.foldl_map]
  rfl

/-- Lays the index down, if the file has sync points. -/
def putIndex (headers : Headers) (draft : Draft) : Draft :=
  if draft.ledger.intervals.isEmpty then draft
  else
    draft.put draft.ledger (Index.packet draft.ledger headers.clockCount).encode
      (.index (Index.contents draft.ledger headers.clockCount))

theorem putIndex_eq {headers : Headers} {draft : Draft} (begun : draft.ledger.intervals ≠ []) :
    draft.putIndex headers =
      draft.put draft.ledger (Index.packet draft.ledger headers.clockCount).encode
        (.index (Index.contents draft.ledger headers.clockCount)) := by
  have filled : ¬ draft.ledger.intervals.isEmpty := by simpa using begun
  rw [putIndex, if_neg filled]

/-- The file with its index, if there is to be one. -/
def ended (headers : Headers) (writeIndex : Bool) (draft : Draft) : Draft :=
  if writeIndex then draft.putIndex headers else draft

theorem ended_ledger (headers : Headers) (writeIndex : Bool) (draft : Draft) :
    (draft.ended headers writeIndex).ledger = draft.ledger := by
  unfold ended putIndex
  split
  · split
    · rfl
    · rfl
  · rfl

/-- Behind this front, the bytes spell what a reader is to find. -/
def Spelled (headers : Headers) (front : Bytes) (draft : Draft) : Prop :=
  ∃ laid, draft.bytes = front ++ laid ∧
    Contents.Spells headers false front.length laid draft.body

section
variable {headers : Headers} {front : Bytes} {draft : Draft} {stream : UInt32} {pts : Nat}

/-- An element that the reader finds at the end can be laid down. -/
theorem Spelled.put (spelled : draft.Spelled headers front) {bytes : Bytes} {element : Element}
    (filled : 0 < bytes.length)
    (reads : ∀ rest, Contents.readElement? headers (Contents.Synced draft.body) (bytes ++ rest) =
      some (element, rest)) (ledger : Ledger) :
    (draft.put ledger bytes element).Spelled headers front := by
  obtain ⟨behind, whole, spells⟩ := spelled
  refine ⟨behind ++ bytes, by simp [Draft.put, whole], spells.append ?_⟩
  rw [whole, List.length_append]
  exact .single filled (by simpa using reads)

theorem Spelled.putSyncpoint (spelled : draft.Spelled headers front) (agree : headers.Agree)
    (admits : headers.Admits stream pts) :
    (draft.putSyncpoint headers stream pts).Spelled headers front :=
  spelled.put (Packet.encode_pos _)
    (Contents.readElement?_syncpoint (admits.clock agree) admits.2 draft.back _) _

/-- A frame can be laid down once there is a sync point. -/
theorem Spelled.putRecord (spelled : draft.Spelled headers front) (agree : headers.Agree)
    (synced : Contents.Synced draft.body = true) {header : StreamHeader}
    (found : headers.stream? stream = some header) (pts : Nat) (payload : Bytes) :
    (draft.putRecord headers header stream pts payload).Spelled headers front := by
  have filled : 0 < (FrameRecord.encode header
      (headers.main.frameCodes.get FrameCodeTable.genericCode) pts payload).length := by
    simp [FrameRecord.encode, FrameRecord.header, FrameRecord.fields, Field.encode]
  apply spelled.put filled
  intro rest
  rw [synced]
  exact Contents.readElement?_frame agree found pts payload rest

end

/-- What holds of a file wherever its layout has come to. -/
structure Laid (headers : Headers) (draft : Draft) : Prop where
  counted : draft.ledger.streamCount = headers.streams.length
  spelled : ∃ laid, draft.bytes = headers.opening ++ laid ∧
    Contents.Spells headers false headers.opening.length laid draft.body
  synced : Contents.Synced draft.body = !draft.ledger.intervals.isEmpty
  ascending : Index.Ascending 0 (Index.places draft.ledger)
  latest : ∀ {pts : Nat} {stream : UInt32}, draft.ledger.latest = some (pts, stream) →
    headers.Admits stream pts

/-- What holds of a file between two frames: the next sync point, should there be
one, is a whole unit of the index behind the last, and no sync point is without a
frame. -/
structure Sound (headers : Headers) (draft : Draft) : Prop extends Laid headers draft where
  apart : ∀ {last : Nat}, draft.ledger.lastSyncpoint? = some last →
    last + Index.unit ≤ draft.bytes.length
  filled : draft.ledger.intervals ≠ [] → draft.ledger.latest.isSome

section
variable {headers : Headers} {draft : Draft} {stream : UInt32} {pts : Nat}

theorem length_opening (headers : Headers) : Index.unit ≤ headers.opening.length := by
  have mark : Index.unit ≤ fileMark.length := by decide
  simp only [Headers.opening, List.length_append]
  omega

theorem Laid.length_le (laid : draft.Laid headers) :
    headers.opening.length ≤ draft.bytes.length := by
  obtain ⟨behind, spelled, _⟩ := laid.spelled
  rw [spelled, List.length_append]
  exact Nat.le_add_right _ _

theorem opened_sound (headers : Headers) : (opened headers).Sound headers where
  counted := by simp [opened, Ledger.empty, Ledger.streamCount]
  spelled := ⟨[], by simp [opened], .nil⟩
  synced := rfl
  ascending := trivial
  latest := by
    intro pts stream latest
    cases latest
  apart := by
    intro last found
    cases found
  filled := fun begun => absurd rfl begun

theorem places_addSyncpoint (ledger : Ledger) (position : Nat) :
    Index.places (ledger.addSyncpoint position) = Index.places ledger ++ [position / Index.unit] := by
  simp [Index.places, Ledger.syncpoints, Ledger.addSyncpoint]

theorem getLast?_places (ledger : Ledger) :
    (Index.places ledger).getLast? = ledger.lastSyncpoint?.map (· / Index.unit) := by
  simp [Index.places, Ledger.syncpoints, Ledger.lastSyncpoint?, Function.comp_def]

theorem places_addFrame (ledger : Ledger) (clocks : List Ratio) (stream : UInt32) (pts : Nat) :
    Index.places (ledger.addFrame clocks stream pts) = Index.places ledger := by
  cases intervals : ledger.intervals with
  | nil => simp [Index.places, Ledger.syncpoints, Ledger.addFrame, intervals]
  | cons newest others =>
    simp [Index.places, Ledger.syncpoints, Ledger.addFrame, intervals, Interval.enter]

theorem lastSyncpoint?_addFrame (ledger : Ledger) (clocks : List Ratio) (stream : UInt32)
    (pts : Nat) : (ledger.addFrame clocks stream pts).lastSyncpoint? = ledger.lastSyncpoint? := by
  cases intervals : ledger.intervals with
  | nil => simp [Ledger.lastSyncpoint?, Ledger.addFrame, intervals]
  | cons newest others =>
    simp [Ledger.lastSyncpoint?, Ledger.addFrame, intervals, Interval.enter]

theorem later_eq (clocks : List Ratio) (time : Nat × UInt32) (latest : Option (Nat × UInt32)) :
    Ledger.later clocks time latest = time ∨ some (Ledger.later clocks time latest) = latest := by
  cases latest with
  | none => exact .inl rfl
  | some latest =>
    by_cases after : Ledger.IsLater clocks time latest
    · exact .inl (if_pos after)
    · exact .inr (congrArg some (if_neg after))

theorem Sound.putSyncpoint (agree : headers.Agree) (sound : draft.Sound headers)
    (admits : headers.Admits stream pts) : (draft.putSyncpoint headers stream pts).Laid headers where
  counted := by
    have counted := sound.counted
    simpa [Draft.putSyncpoint, put, Ledger.addSyncpoint, Ledger.streamCount] using counted
  spelled := Spelled.putSyncpoint sound.spelled agree admits
  synced := by
    rw [Draft.putSyncpoint, put, Contents.synced_append]
    exact Bool.or_true _
  ascending := by
    have opening := length_opening headers
    have behind := sound.length_le
    change Index.Ascending 0 (Index.places (draft.ledger.addSyncpoint draft.bytes.length))
    rw [places_addSyncpoint]
    apply sound.ascending.append
    rw [getLast?_places]
    cases found : draft.ledger.lastSyncpoint? with
    | none =>
      simp [Index.unit] at *
      omega
    | some last =>
      have apart := sound.apart found
      simp [Index.unit] at *
      omega
  latest := sound.latest

theorem Laid.putRecord (agree : headers.Agree) (laid : draft.Laid headers)
    (begun : draft.ledger.intervals ≠ []) {header : StreamHeader}
    (found : headers.stream? stream = some header) (admits : headers.Admits stream pts)
    (payload : Bytes) :
    (draft.putRecord headers header stream pts payload).Laid headers where
  counted := by
    have counted := laid.counted
    simpa [Draft.putRecord, put, Ledger.addFrame, Ledger.streamCount] using counted
  spelled := Spelled.putRecord laid.spelled agree (by simp [laid.synced, begun]) found pts payload
  synced := by
    have synced : Contents.Synced draft.body = true := by simp [laid.synced, begun]
    have still : (draft.ledger.intervals.modifyHead (·.enter stream.toNat pts)).isEmpty = false := by
      simpa using begun
    have kept : Contents.Synced (draft.putRecord headers header stream pts payload).body = true := by
      rw [Draft.putRecord, put, Contents.synced_append, synced, Bool.true_or]
    rw [kept]
    exact (congrArg not still).symm
  ascending := by
    change Index.Ascending 0 (Index.places (draft.ledger.addFrame _ stream pts))
    rw [places_addFrame]
    exact laid.ascending
  latest := by
    intro latestPts latestStream latest
    obtain newer | kept := later_eq headers.main.timeBases (pts, stream) draft.ledger.latest
    · cases newer.symm.trans (Option.some.inj latest)
      exact admits
    · exact laid.latest (kept.symm.trans latest)

theorem admits_iff {header : StreamHeader} (found : headers.stream? stream = some header) :
    headers.Admits stream pts ↔ (codedTime? pts stream.toNat headers.clockCount).isSome := by
  have inside : stream.toNat < headers.streams.length := by
    obtain ⟨inside, _⟩ := List.getElem?_eq_some_iff.mp found
    exact inside
  simp [Headers.Admits, inside]

theorem length_record (header : StreamHeader) (code : FrameCode) (pts : Nat) (payload : Bytes) :
    9 ≤ (FrameRecord.encode header code pts payload).length := by
  simp [FrameRecord.encode, FrameRecord.header, FrameRecord.fields, Field.encode, Varint.encode,
    Bytes.ofWord32]
  omega

theorem length_syncpoint (ledger : Ledger) (clocks : Nat) (stream : UInt32) (pts position : Nat) :
    15 ≤ (Recording.syncpoint ledger clocks stream pts position).encode.length := by
  have payload : 2 ≤ (Recording.syncpoint ledger clocks stream pts position).payload.length := by
    simp [Recording.syncpoint, Field.encode, Varint.encode]
    omega
  have lead := Packet.length_lead (Recording.syncpoint ledger clocks stream pts position)
  have size : 0 < Varint.size
      (Packet.distance (Recording.syncpoint ledger clocks stream pts position).payload.length) := by
    rw [← Varint.length_encode]
    simp [Varint.encode]
  rw [Packet.length_encode, Packet.size, Packet.distance] at *
  omega

theorem prepared_begun (headers : Headers) (stream : UInt32) (pts size : Nat) (draft : Draft) :
    (draft.prepared headers stream pts size).ledger.intervals ≠ [] := by
  unfold prepared
  split
  · simp [Draft.putSyncpoint, put, Ledger.addSyncpoint]
  · intro empty
    simp_all [Recording.needsSyncpoint, Ledger.lastSyncpoint?]

/-- A frame that the file admits stands behind a sync point. -/
theorem begun_putFrame (admits : headers.Admits stream pts) (payload : Bytes) :
    (draft.putFrame headers stream pts payload).ledger.intervals ≠ [] := by
  obtain ⟨header, found⟩ := admits.header
  have begun := prepared_begun headers stream pts payload.length draft
  rw [putFrame_eq found]
  change List.modifyHead _ (draft.prepared headers stream pts payload.length).ledger.intervals ≠ []
  simpa using begun

theorem begun_putWrites {writes : List FrameWrite} (some_writes : writes ≠ [])
    (admits : ∀ write ∈ writes, headers.Admits write.stream write.pts) :
    (draft.putWrites headers writes).ledger.intervals ≠ [] := by
  obtain ⟨front, last, rfl⟩ := (List.eq_nil_or_concat writes).resolve_left some_writes
  rw [List.concat_eq_append] at admits ⊢
  rw [putWrites, List.foldl_append]
  exact begun_putFrame (admits last (by simp)) last.payload

/-- What is kept by a sync point, and by a frame's own bytes behind one, is kept by a frame. -/
theorem putFrame_induct (Holds : Draft → Prop) (payload : Bytes) (holds : Holds draft)
    (sync : Holds (draft.putSyncpoint headers stream pts))
    (record : ∀ header before, headers.stream? stream = some header →
      before.ledger.intervals ≠ [] → Holds before →
        Holds (before.putRecord headers header stream pts payload)) :
    Holds (draft.putFrame headers stream pts payload) := by
  cases found : headers.stream? stream with
  | none => rwa [putFrame, found]
  | some header =>
    rw [putFrame_eq found]
    refine record header _ found (prepared_begun headers stream pts payload.length draft) ?_
    unfold prepared
    split
    · exact sync
    · exact holds

theorem Sound.prepared (agree : headers.Agree) (sound : draft.Sound headers)
    (admits : headers.Admits stream pts) (size : Nat) :
    (draft.prepared headers stream pts size).Laid headers := by
  unfold Draft.prepared
  split
  · exact sound.putSyncpoint agree admits
  · exact sound.toLaid

theorem prepared_last (sound : draft.Sound headers) {size last : Nat}
    (found : (draft.prepared headers stream pts size).ledger.lastSyncpoint? = some last) :
    last + 15 ≤ (draft.prepared headers stream pts size).bytes.length := by
  by_cases needed : Recording.needsSyncpoint draft.ledger headers.main.maxDistance
      draft.bytes.length size
  · have grown := length_syncpoint draft.ledger headers.clockCount stream pts draft.bytes.length
    rw [Draft.prepared, if_pos needed] at found ⊢
    cases found
    simp only [Draft.putSyncpoint, put, List.length_append]
    omega
  · rw [Draft.prepared, if_neg needed] at found ⊢
    have apart := sound.apart found
    rw [Index.unit] at apart
    omega

/-- A frame that can be coded leaves the file between two frames again. -/
theorem Sound.putFrame (agree : headers.Agree) (sound : draft.Sound headers)
    (admits : headers.Admits stream pts) (payload : Bytes) :
    (draft.putFrame headers stream pts payload).Sound headers := by
  obtain ⟨header, found⟩ := admits.header
  have laid := (sound.prepared agree admits payload.length).putRecord agree
    (prepared_begun headers stream pts payload.length draft) found admits payload
  rw [putFrame_eq found]
  refine ⟨laid, ?_, fun _ => rfl⟩
  intro last known
  have record := length_record header (headers.main.frameCodes.get FrameCodeTable.genericCode) pts
    payload
  have behind := prepared_last sound ((lastSyncpoint?_addFrame ..).symm.trans known)
  simp only [Draft.putRecord, put, List.length_append, Index.unit]
  omega

theorem Sound.putFrames (agree : headers.Agree) (sound : draft.Sound headers)
    {frames : List WaitingFrame}
    (admits : ∀ frame ∈ frames, headers.Admits frame.stream frame.pts.toNat) :
    (draft.putFrames headers frames).Sound headers :=
  List.foldlRecOn frames _ sound fun _ sound frame member =>
    sound.putFrame agree (admits frame member) frame.payload

/-- The latest time of a file with frames can be stated in its index. -/
theorem Sound.latestCodable (agree : headers.Agree) (sound : draft.Sound headers)
    (begun : draft.ledger.intervals ≠ []) :
    Index.LatestCodable draft.ledger headers.clockCount := by
  obtain ⟨⟨pts, stream⟩, latest⟩ := Option.isSome_iff_exists.mp (sound.filled begun)
  have admits := sound.latest latest
  rw [Index.LatestCodable, latest]
  exact ⟨admits.clock agree, codedTime?_isSome.mp admits.2⟩

/-- The index can be laid down behind any frame. -/
theorem Sound.putIndex (agree : headers.Agree) (sound : draft.Sound headers) :
    (draft.putIndex headers).Laid headers := by
  by_cases empty : draft.ledger.intervals.isEmpty
  · rw [Draft.putIndex, if_pos empty]
    exact sound.toLaid
  · have begun : draft.ledger.intervals ≠ [] := by simpa using empty
    have codable := sound.latestCodable agree begun
    rw [Draft.putIndex, if_neg empty]
    refine ⟨sound.counted, ?_, ?_, sound.ascending, sound.latest⟩
    · exact Spelled.put sound.spelled (Packet.encode_pos _)
        (Contents.readElement?_index sound.counted codable sound.ascending _) _
    · rw [put, Contents.synced_append, sound.synced]
      exact Bool.or_false _

theorem Sound.ended (agree : headers.Agree) (sound : draft.Sound headers) (writeIndex : Bool) :
    (draft.ended headers writeIndex).Laid headers := by
  cases writeIndex with
  | false => exact sound.toLaid
  | true => exact sound.putIndex agree

/-- A reader takes the whole file and finds what was laid down. -/
theorem Laid.read? (agree : headers.Agree) (laid : draft.Laid headers) :
    Contents.read? draft.bytes = some ⟨headers, draft.body⟩ := by
  obtain ⟨behind, spelled, spells⟩ := laid.spelled
  have front : (headers.opening ++ behind).length - behind.length = headers.opening.length := by
    simp
  rw [spelled]
  simp only [Contents.read?, bind, Option.bind, Contents.readHeaders?_opening agree, front,
    spells.readBody?_eq, pure]

end

section
variable {headers : Headers} {draft : Draft} {stream : UInt32} {pts : Nat}

theorem frames_put (headers : Headers) (draft : Draft) (ledger : Ledger) (bytes : Bytes)
    (element : Element) :
    Contents.frames ⟨headers, (draft.put ledger bytes element).body⟩ =
      Contents.frames ⟨headers, draft.body⟩ ++
        Contents.frames ⟨headers, [⟨draft.bytes.length, element⟩]⟩ := by
  simp [Contents.frames, put]

theorem frames_putFrame (draft : Draft) (admits : headers.Admits stream pts) (payload : Bytes) :
    Contents.frames ⟨headers, (draft.putFrame headers stream pts payload).body⟩ =
      Contents.frames ⟨headers, draft.body⟩ ++ [(stream.toNat, pts, payload)] := by
  obtain ⟨header, found⟩ := admits.header
  have prepared : Contents.frames ⟨headers, (draft.prepared headers stream pts payload.length).body⟩ =
      Contents.frames ⟨headers, draft.body⟩ := by
    unfold Draft.prepared
    split
    · rw [putSyncpoint, frames_put]
      simp [Contents.frames]
    · rfl
  rw [putFrame_eq found, putRecord, frames_put, prepared]
  rfl

/-- The frames of a file are the ones that were laid down, in that order. -/
theorem frames_putWrites (draft : Draft) {writes : List FrameWrite}
    (admits : ∀ write ∈ writes, headers.Admits write.stream write.pts) :
    Contents.frames ⟨headers, (draft.putWrites headers writes).body⟩ =
      Contents.frames ⟨headers, draft.body⟩ ++ writes.map FrameWrite.record := by
  induction writes generalizing draft with
  | nil => simp [putWrites]
  | cons write others ih =>
    have below : ∀ other ∈ others, headers.Admits other.stream other.pts :=
      fun other member => admits other (by simp [member])
    have first := frames_putFrame draft (admits write (by simp)) write.payload
    rw [putWrites, List.foldl_cons, ← putWrites, ih _ below, first]
    simp [FrameWrite.record]

theorem frames_putFrames (draft : Draft) {frames : List WaitingFrame}
    (admits : ∀ frame ∈ frames, headers.Admits frame.stream frame.pts.toNat) :
    Contents.frames ⟨headers, (draft.putFrames headers frames).body⟩ =
      Contents.frames ⟨headers, draft.body⟩ ++ frames.map WaitingFrame.record := by
  rw [putFrames_eq, frames_putWrites draft (List.forall_mem_map.mpr admits), List.map_map]
  rfl

theorem put_plain (plain : ∀ placed ∈ draft.body, placed.element.isIndex = false)
    (ledger : Ledger) (bytes : Bytes) {element : Element} (other : element.isIndex = false) :
    ∀ placed ∈ (draft.put ledger bytes element).body, placed.element.isIndex = false := by
  intro placed member
  rcases List.mem_append.mp member with member | member
  · exact plain placed member
  · cases List.mem_singleton.mp member
    exact other

theorem putFrame_plain (plain : ∀ placed ∈ draft.body, placed.element.isIndex = false)
    (payload : Bytes) :
    ∀ placed ∈ (draft.putFrame headers stream pts payload).body, placed.element.isIndex = false :=
  putFrame_induct (∀ placed ∈ ·.body, placed.element.isIndex = false) payload plain
    (put_plain plain _ _ rfl) fun _ _ _ _ plain => put_plain plain _ _ rfl

/-- There is no index between frames. -/
theorem putFrames_plain (frames : List WaitingFrame)
    (plain : ∀ placed ∈ draft.body, placed.element.isIndex = false) :
    ∀ placed ∈ (draft.putFrames headers frames).body, placed.element.isIndex = false :=
  List.foldlRecOn (motive := (∀ placed ∈ Draft.body ·, placed.element.isIndex = false))
    frames _ plain fun _ plain frame _ => putFrame_plain plain frame.payload

/-- A file ends in its index, if it has one. -/
theorem ended_body (headers : Headers) (writeIndex : Bool) (draft : Draft) :
    ∃ tail, (draft.ended headers writeIndex).body = draft.body ++ tail ∧
      (∀ placed ∈ tail, placed.element.isIndex) ∧
      tail.length = (writeIndex && !draft.ledger.intervals.isEmpty).toNat := by
  cases writeIndex with
  | false => exact ⟨[], by simp [ended], by simp, rfl⟩
  | true =>
    by_cases empty : draft.ledger.intervals.isEmpty
    · exact ⟨[], by simp [ended, putIndex, empty], by simp, by simp [empty]⟩
    · refine ⟨[⟨draft.bytes.length, .index (Index.contents draft.ledger headers.clockCount)⟩],
        by simp [ended, putIndex, empty, put], ?_, by simp [empty]⟩
      intro placed member
      cases List.mem_singleton.mp member
      rfl

theorem frames_ended (headers : Headers) (writeIndex : Bool) (draft : Draft) :
    Contents.frames ⟨headers, (draft.ended headers writeIndex).body⟩ =
      Contents.frames ⟨headers, draft.body⟩ := by
  cases writeIndex with
  | false => rfl
  | true =>
    by_cases empty : draft.ledger.intervals.isEmpty
    · simp [ended, putIndex, empty]
    · have whole := frames_put headers draft draft.ledger
        (Index.packet draft.ledger headers.clockCount).encode
        (.index (Index.contents draft.ledger headers.clockCount))
      simpa [ended, putIndex, empty, Contents.frames] using whole

end

end Draft

end NutContainer
