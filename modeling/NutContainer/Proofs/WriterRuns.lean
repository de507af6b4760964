import NutContainer.Proofs.Bookkeeping
import NutContainer.Proofs.RecordingSteps

/-! Frames written one after the other, on any output and whatever it had before. As long as
every write goes well, the recording follows a layout that begins behind what was there, and what
is laid down is what a reader finds who begins to read there, too. -/
namespace NutContainer

/-- Writes frames one after the other and tells their sizes. -/
def Recording.writeFrames (headers : Headers) (writes : List FrameWrite) : Act Recording (List Nat) :=
  writes.mapM fun write => Recording.writeFrame headers write.stream write.pts write.payload

namespace Draft

variable {headers : Headers} {front : Bytes} {draft : Draft} {writes : List FrameWrite}

/-- Nothing is laid down yet behind this front. -/
def blank (headers : Headers) (front : Bytes) : Draft := ⟨.empty headers.streams.length, front, []⟩

/-- What a run of frames lays down is what a reader finds, and the books say the same. -/
structure Readable (headers : Headers) (front : Bytes) (draft : Draft) : Prop where
  counted : draft.ledger.streamCount = headers.streams.length
  spelled : draft.Spelled headers front
  booked : draft.Booked headers

theorem readable_blank (headers : Headers) (front : Bytes) :
    (blank headers front).Readable headers front where
  counted := by simp [blank, Ledger.empty, Ledger.streamCount]
  spelled := ⟨[], by simp [blank], .nil⟩
  booked := booked_empty headers headers.streams.length front

theorem Readable.putFrame {stream : UInt32} {pts : Nat} (readable : draft.Readable headers front)
    (agree : headers.Agree) (admits : headers.Admits stream pts) (payload : Bytes) :
    (draft.putFrame headers stream pts payload).Readable headers front := by
  refine putFrame_induct (Readable headers front) payload readable ?_ ?_
  · exact ⟨readable.counted, readable.spelled.putSyncpoint agree admits,
      readable.booked.putSyncpoint⟩
  · intro header before found begun readable
    have synced := readable.booked.synced begun
    exact ⟨(Ledger.streamCount_addFrame ..).trans readable.counted,
      readable.spelled.putRecord agree synced found pts payload,
      readable.booked.putRecord begun header stream pts payload⟩

theorem Readable.putWrites (readable : draft.Readable headers front) (agree : headers.Agree)
    (admits : ∀ write ∈ writes, headers.Admits write.stream write.pts) :
    (draft.putWrites headers writes).Readable headers front :=
  List.foldlRecOn writes _ readable fun _ readable write member =>
    readable.putFrame agree (admits write member) write.payload

end Draft

namespace Recording

variable {start before after : Recording} {front : Bytes} {headers : Headers} {draft : Draft}
  {writes : List FrameWrite} {sizes : List Nat}

theorem follows_writeFrames (follows : Follows start front before draft)
    (ran : writeFrames headers writes before = .ok sizes after) :
    (∀ write ∈ writes, headers.Admits write.stream write.pts) ∧
      Follows start front after (draft.putWrites headers writes) := by
  induction writes generalizing before draft sizes with
  | nil =>
    obtain ⟨_, rfl⟩ := Act.pure_ok.mp ran
    exact ⟨nofun, follows⟩
  | cons write others ih =>
    rw [writeFrames, List.mapM_cons] at ran
    obtain ⟨size, middle, first, ran⟩ := Act.bind_ok.mp ran
    obtain ⟨rest, last, wrote, done⟩ := Act.bind_ok.mp ran
    obtain ⟨_, rfl⟩ := Act.pure_ok.mp done
    obtain ⟨admitted, follows⟩ := follows_writeFrame follows first
    obtain ⟨admits, follows⟩ := ih follows wrote
    refine ⟨fun other member => ?_, follows⟩
    rcases List.mem_cons.mp member with rfl | member
    · exact admitted
    · exact admits other member

/-- The layout that a run of frames follows, on a file that has none yet. What stood in the
output before is of no account, so any bytes may stand for it. -/
theorem writeFrames_ok (agree : headers.Agree)
    (fresh : before.ledger = .empty headers.streams.length)
    (ran : writeFrames headers writes before = .ok sizes after) :
    ∃ (front laid : Bytes) (draft : Draft),
      front.length = before.output.sink.position ∧
      draft = (Draft.blank headers front).putWrites headers writes ∧
      (∀ write ∈ writes, headers.Admits write.stream write.pts) ∧
      draft.Readable headers front ∧ Follows before front after draft ∧
      draft.bytes = front ++ laid ∧ before.output.Adds laid after.output ∧
      Contents.readBody? headers false before.output.sink.position laid = some draft.body := by
  have length : (List.replicate before.output.sink.position (0 : UInt8)).length =
      before.output.sink.position := List.length_replicate
  generalize List.replicate before.output.sink.position (0 : UInt8) = front at length
  have starts : Follows before front before (.blank headers front) :=
    ⟨length.symm, fresh, [], by simp [Draft.blank], .none _⟩
  obtain ⟨admits, follows⟩ := follows_writeFrames starts ran
  have readable := (Draft.readable_blank headers front).putWrites agree admits
  obtain ⟨laid, bytes, adds⟩ := follows.laid
  obtain ⟨spelled, whole, spells⟩ := readable.spelled
  have same : laid = spelled := List.append_cancel_left (bytes.symm.trans whole)
  subst same
  refine ⟨front, laid, _, length, rfl, admits, readable, follows, bytes, adds, ?_⟩
  rw [← length]
  exact spells.readBody?_eq

/-- A plan for a file with sync points this near to each other. -/
def samplePlan (maxDistance : UInt32) : HeaderPlan := ⟨.pcm, maxDistance, 60000⟩

/-- The headers for one stream of sound with a clock in milliseconds. -/
def sampleHeaders (maxDistance : UInt32) : Headers :=
  let stream : StreamHeader :=
    ⟨0, .audio, .pcm, .perSecond 1000, 0, 0, 60000, 0, 0, [], .audio ⟨48000, 1⟩ 1⟩
  ⟨(samplePlan maxDistance).mainHeader [stream], [stream]⟩

/-- Four frames, the second of them back in time. -/
def sampleWrites : List FrameWrite := [⟨0, 5, [1]⟩, ⟨0, 3, [2]⟩, ⟨0, 9, [3]⟩, ⟨0, 10, []⟩]

end Recording

end NutContainer
