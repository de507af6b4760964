import NutContainer.Proofs.RecordingSteps
import NutContainer.Proofs.ReleaseOrder
import NutContainer.Session.Call

/-! A session that goes well is a buffer and a file side by side. Each frame that the
buffer lets go is laid down at once, so the file is the layout of what has left the
buffer, and what a session remembers besides are two counts over the same frames. -/
namespace NutContainer

namespace WaitingFrame

/-- The frame's stream is in the file and its time can be written there. -/
def Writable (headers : Headers) (frame : WaitingFrame) : Prop :=
  0 ≤ frame.pts ∧ headers.Admits frame.stream frame.pts.toNat

/-- The latest time so far and how many frames came after a later one, when one more
frame is written. -/
def count (counts : Option Int × Nat) (frame : WaitingFrame) : Option Int × Nat :=
  (some (counts.1.elim frame.millis (max · frame.millis)),
    counts.2 + if counts.1.any (frame.millis < ·) then 1 else 0)

/-- The latest time among frames and how many of them come after a later one. -/
def tally (frames : List WaitingFrame) : Option Int × Nat := frames.foldl count (none, 0)

theorem tally_append (front back : List WaitingFrame) :
    tally (front ++ back) = back.foldl count (tally front) := List.foldl_append

end WaitingFrame

namespace Draft

/-- What is to be said of a finished file. -/
def summary (draft : Draft) (writeIndex : Bool) (late : Nat) : Summary where
  frames := draft.ledger.frameTotal
  frameCounts := draft.ledger.frameCounts
  syncpoints := draft.ledger.intervals.length
  size := draft.bytes.length
  indexed := writeIndex && !draft.ledger.intervals.isEmpty
  late := late

end Draft

namespace Session

variable {before after : Session} {headers : Headers} {draft : Draft} {α : Type}

theorem onRecording_ok {act : Act Recording α} {value : α} :
    onRecording act before = .ok value after ↔
      ∃ recording, act before.recording = .ok value recording ∧ after = { before with recording } := by
  obtain ⟨converter, options, phase, headers, buffer, recording, lastMillis, late⟩ := before
  cases ran : act recording with
  | ok value middle => simp [onRecording, ran, eq_comm]
  | error fault middle => simp [onRecording, ran]

theorem note_ok {notice : Notice} {value : Unit} (ran : note notice before = .ok value after) :
    ∃ recording, (∀ {draft : Draft}, before.recording.Holds draft → recording.Holds draft) ∧
      after = { before with recording } := by
  obtain ⟨recording, noted, rfl⟩ := onRecording_ok.mp ran
  exact ⟨recording, fun holds => Recording.holds_note holds noted, rfl⟩

theorem expect_ok {phase : Phase} {operation : String} {value : Unit} :
    expect phase operation before = .ok value after ↔ before.phase = phase ∧ before = after := by
  by_cases turn : before.phase = phase
  · simp [expect, turn]
  · simp [expect, turn]

theorem orFail_ok {act : Act Session α} {value : α} :
    orFail act before = .ok value after ↔ act before = .ok value after := by
  cases ran : act before with
  | ok value middle => simp [orFail, ran]
  | error failure middle => cases failure <;> simp [orFail, ran]

theorem settle_ok {result : Except Failure α} {value : α} :
    (settle result : Act Session α) before = .ok value after ↔ result = .ok value ∧ before = after := by
  cases result with
  | ok found => simp [settle, Act.pure_ok]
  | error failure => simp [settle, Act.not_throw_ok]

theorem headersFor_ok {operation : String} :
    headersFor operation before = .ok headers after ↔
      before.headers = some headers ∧ before = after := by
  cases found : before.headers with
  | some known => simp [headersFor, found]
  | none => simp [headersFor, found]

/-- What writing a frame comes to once any remark on its lateness is made. -/
private def record (headers : Headers) (frame : WaitingFrame) : Act Session Unit := do
  if frame.pts < 0 then
    Act.refuse (.invalidTimestamp frame.stream frame.pts)
  let _ ← onRecording (Recording.writeFrame headers frame.stream frame.pts.toNat frame.payload)
  modify fun session =>
    { session with lastMillis := some (session.lastMillis.elim frame.millis (max · frame.millis)) }

private theorem record_ok {frame : WaitingFrame} {value : Unit}
    (ran : record headers frame before = .ok value after) (holds : before.recording.Holds draft) :
    frame.Writable headers ∧ ∃ recording,
      recording.Holds (draft.putFrame headers frame.stream frame.pts.toNat frame.payload) ∧
      after = { before with
        recording
        lastMillis := some (before.lastMillis.elim frame.millis (max · frame.millis)) } := by
  unfold record at ran
  dsimp only at ran
  by_cases negative : frame.pts < 0
  · rw [if_pos negative] at ran
    obtain ⟨_, _, thrown, _⟩ := Act.bind_ok.mp ran
    exact absurd thrown Act.not_refuse_ok
  · rw [if_neg negative] at ran
    obtain ⟨_, _, wrote, ran⟩ := Act.bind_ok.mp ran
    obtain ⟨recording, laid, rfl⟩ := onRecording_ok.mp wrote
    cases Act.modify_ok.mp ran
    obtain ⟨admits, written⟩ := Recording.holds_writeFrame holds laid
    exact ⟨⟨by omega, admits⟩, recording, written, rfl⟩

/-- The session when these frames have left for this recording and this buffer is
what remains. -/
def emitted (session : Session) (frames : List WaitingFrame) (buffer : OrderingBuffer)
    (recording : Recording) : Session :=
  let counts := frames.foldl WaitingFrame.count (session.lastMillis, session.late)
  { session with buffer, recording, lastMillis := counts.1, late := counts.2 }

@[simp] theorem emitted_options (session : Session) (frames : List WaitingFrame)
    (buffer : OrderingBuffer) (recording : Recording) :
    (session.emitted frames buffer recording).options = session.options := rfl

/-- A frame that is written is laid down and counted, and nothing else changes. -/
theorem emit_ok {frame : WaitingFrame} {value : Unit} (ran : emit frame before = .ok value after)
    (known : before.headers = some headers) (holds : before.recording.Holds draft) :
    frame.Writable headers ∧ ∃ recording,
      recording.Holds (draft.putFrame headers frame.stream frame.pts.toNat frame.payload) ∧
      after = before.emitted [frame] before.buffer recording := by
  obtain ⟨_, _, found, ran⟩ := Act.bind_ok.mp ran
  obtain ⟨same, rfl⟩ := headersFor_ok.mp found
  cases known.symm.trans same
  obtain ⟨_, _, got, ran⟩ := Act.bind_ok.mp ran
  obtain ⟨rfl, rfl⟩ := Act.get_ok.mp got
  dsimp only at ran
  cases last : before.lastMillis with
  | none =>
    rw [last] at ran
    obtain ⟨writable, recording, written, rfl⟩ := record_ok ran holds
    exact ⟨writable, recording, written, by simp [emitted, WaitingFrame.count, last]⟩
  | some top =>
    rw [last] at ran
    by_cases late : frame.millis < top
    · simp only [late, if_true] at ran
      obtain ⟨_, counted, changed, ran⟩ := Act.bind_ok.mp ran
      cases Act.modify_ok.mp changed
      obtain ⟨_, remarked, noted, ran⟩ := Act.bind_ok.mp ran
      obtain ⟨recording, kept, rfl⟩ := note_ok noted
      obtain ⟨writable, recording, written, rfl⟩ := record_ok ran (kept holds)
      exact ⟨writable, recording, written, by simp [emitted, WaitingFrame.count, last, late]⟩
    · simp only [late, if_false] at ran
      obtain ⟨writable, recording, written, rfl⟩ := record_ok ran holds
      exact ⟨writable, recording, written, by simp [emitted, WaitingFrame.count, last, late]⟩

/-- The frames that leave the buffer are laid down and counted in that order. -/
theorem emitBy_ok {pop? : OrderingBuffer → Option (WaitingFrame × OrderingBuffer)} {count : Nat}
    {value : Unit} (ran : emitBy pop? count before = .ok value after)
    (known : before.headers = some headers) (holds : before.recording.Holds draft) :
    (∀ frame ∈ (OrderingBuffer.popUpTo pop? count before.buffer).1, frame.Writable headers) ∧
      ∃ recording,
        recording.Holds
          (draft.putFrames headers (OrderingBuffer.popUpTo pop? count before.buffer).1) ∧
        after = before.emitted (OrderingBuffer.popUpTo pop? count before.buffer).1
          (OrderingBuffer.popUpTo pop? count before.buffer).2 recording := by
  induction count generalizing before draft with
  | zero =>
    obtain ⟨_, rfl⟩ := Act.pure_ok.mp ran
    exact ⟨by simp [OrderingBuffer.popUpTo], before.recording, holds, rfl⟩
  | succ count ih =>
    obtain ⟨_, _, got, ran⟩ := Act.bind_ok.mp ran
    obtain ⟨rfl, rfl⟩ := Act.get_ok.mp got
    cases popped : pop? before.buffer with
    | none =>
      rw [popped] at ran
      obtain ⟨_, rfl⟩ := Act.pure_ok.mp ran
      simp only [OrderingBuffer.popUpTo, popped]
      exact ⟨by simp, before.recording, holds, rfl⟩
    | some next =>
      obtain ⟨frame, buffer⟩ := next
      rw [popped] at ran
      obtain ⟨_, _, moved, ran⟩ := Act.bind_ok.mp ran
      cases Act.set_ok.mp moved
      obtain ⟨_, middle, emitted, ran⟩ := Act.bind_ok.mp ran
      obtain ⟨writable, recording, written, rfl⟩ := emit_ok emitted known holds
      obtain ⟨others, recording, laid, rfl⟩ := ih ran known written
      simp only [OrderingBuffer.popUpTo, popped]
      refine ⟨?_, recording, laid, rfl⟩
      intro other member
      rcases List.mem_cons.mp member with rfl | member
      · exact writable
      · exact others other member

/-- A frame that is taken in has a place in time, and all that it makes ready is
laid down. -/
theorem accept_ok {stream : UInt32} {pts : Int} {payload : Bytes} {value : Unit}
    (ran : accept stream pts payload before = .ok value after)
    (known : before.headers = some headers) (holds : before.recording.Holds draft) :
    ∃ millis, placement headers stream pts = .ok millis ∧
      (∀ frame ∈ (before.buffer.push stream pts millis payload).drainReady.1,
        frame.Writable headers) ∧
      ∃ recording,
        recording.Holds
          (draft.putFrames headers (before.buffer.push stream pts millis payload).drainReady.1) ∧
        after = before.emitted (before.buffer.push stream pts millis payload).drainReady.1
          (before.buffer.push stream pts millis payload).drainReady.2 recording := by
  obtain ⟨_, _, expected, ran⟩ := Act.bind_ok.mp ran
  obtain ⟨phase, rfl⟩ := expect_ok.mp expected
  obtain ⟨_, _, found, ran⟩ := Act.bind_ok.mp (orFail_ok.mp ran)
  obtain ⟨same, rfl⟩ := headersFor_ok.mp found
  cases known.symm.trans same
  obtain ⟨millis, _, settled, ran⟩ := Act.bind_ok.mp ran
  obtain ⟨placed, rfl⟩ := settle_ok.mp settled
  rw [Failure.ofRefusal_eq_ok] at placed
  obtain ⟨_, _, pushed, ran⟩ := Act.bind_ok.mp ran
  cases Act.modify_ok.mp pushed
  obtain ⟨_, _, got, ran⟩ := Act.bind_ok.mp ran
  obtain ⟨rfl, rfl⟩ := Act.get_ok.mp got
  exact ⟨millis, placed, emitBy_ok ran known holds⟩

private theorem notes_ok {notices : List Notice} {value : Unit}
    (ran : notices.forM note before = .ok value after) (holds : before.recording.Holds draft) :
    ∃ recording, recording.Holds draft ∧ after = { before with recording } := by
  induction notices generalizing before with
  | nil =>
    obtain ⟨_, rfl⟩ := Act.pure_ok.mp ran
    exact ⟨before.recording, holds, rfl⟩
  | cons notice others ih =>
    obtain ⟨_, _, noted, ran⟩ := Act.bind_ok.mp ran
    obtain ⟨recording, kept, rfl⟩ := note_ok noted
    obtain ⟨last, held, rfl⟩ := ih ran (kept holds)
    exact ⟨last, held, rfl⟩

/-- A frame is converted and taken in as bytes. -/
theorem writeFrame_ok {frame : Frame} {value : Unit}
    (ran : writeFrame frame before = .ok value after) (known : before.headers = some headers)
    (holds : before.recording.Holds draft) :
    ∃ header converted, headers.stream? frame.stream = some header ∧
      before.converter.convert header frame = .ok converted ∧
      ∃ recording, recording.Holds draft ∧
        accept frame.stream frame.pts converted.bytes { before with recording } =
          .ok value after := by
  obtain ⟨_, _, expected, ran⟩ := Act.bind_ok.mp ran
  obtain ⟨phase, rfl⟩ := expect_ok.mp expected
  obtain ⟨_, _, got, ran⟩ := Act.bind_ok.mp ran
  obtain ⟨rfl, rfl⟩ := Act.get_ok.mp got
  obtain ⟨converted, middle, conversion, ran⟩ := Act.bind_ok.mp ran
  obtain ⟨_, _, found, conversion⟩ := Act.bind_ok.mp (orFail_ok.mp conversion)
  obtain ⟨same, rfl⟩ := headersFor_ok.mp found
  cases known.symm.trans same
  cases stream : headers.stream? frame.stream with
  | none =>
    rw [stream] at conversion
    exact absurd conversion Act.not_refuse_ok
  | some header =>
    rw [stream] at conversion
    obtain ⟨converts, rfl⟩ := settle_ok.mp conversion
    obtain ⟨_, _, noted, ran⟩ := Act.bind_ok.mp ran
    obtain ⟨recording, kept, rfl⟩ := notes_ok noted holds
    exact ⟨header, converted, rfl, converts, recording, kept, ran⟩

/-- The plan that a session derives its headers by. -/
def plan (session : Session) : HeaderPlan :=
  ⟨session.converter.format.fourcc, session.options.maxDistance, session.options.maxPtsDistance⟩

/-- The headers are derived and open the file. -/
theorem writeHeaders_ok {streams : List StreamDescriptor} {value : Unit}
    (ran : writeHeaders streams before = .ok value after)
    (empty : before.recording.output.Holds []) :
    ∃ headers, before.plan.build streams = .ok headers ∧
      ∃ recording, recording.Holds (.opened headers) ∧
        after = { before with headers := some headers, recording, phase := .accepting } := by
  obtain ⟨_, _, expected, ran⟩ := Act.bind_ok.mp ran
  obtain ⟨phase, rfl⟩ := expect_ok.mp expected
  obtain ⟨_, _, got, ran⟩ := Act.bind_ok.mp ran
  obtain ⟨rfl, rfl⟩ := Act.get_ok.mp got
  obtain ⟨headers, _, settled, ran⟩ := Act.bind_ok.mp (orFail_ok.mp ran)
  obtain ⟨built, rfl⟩ := settle_ok.mp settled
  rw [Failure.ofRefusal_eq_ok] at built
  obtain ⟨_, _, wrote, ran⟩ := Act.bind_ok.mp ran
  obtain ⟨recording, opened, rfl⟩ := onRecording_ok.mp wrote
  obtain ⟨_, _, booked, opened⟩ := Act.bind_ok.mp opened
  cases Recording.book_ok.mp booked
  cases Act.modify_ok.mp ran
  exact ⟨headers, built, recording, Recording.holds_writeHeaders opened empty rfl, rfl⟩

/-- What ending a file comes to once its index is settled. -/
private def conclude (pending : Nat) (indexed : Bool) : Act Session Summary := do
  onRecording (Recording.onOutput Output.flush)
  note (.drained pending)
  let session ← get
  let ledger := session.recording.ledger
  return {
    frames := ledger.frameTotal
    frameCounts := ledger.frameCounts
    syncpoints := ledger.intervals.length
    size := session.recording.output.sink.position
    indexed
    late := session.late }

private theorem conclude_ok {pending : Nat} {writeIndex indexed : Bool} {summary : Summary}
    (ran : conclude pending indexed before = .ok summary after)
    (holds : before.recording.Holds draft)
    (answer : indexed = (writeIndex && !draft.ledger.intervals.isEmpty)) :
    summary = draft.summary writeIndex before.late ∧
      ∃ recording, recording.Holds draft ∧ after = { before with recording } := by
  obtain ⟨_, _, flushed, ran⟩ := Act.bind_ok.mp ran
  obtain ⟨flushed, emptied, rfl⟩ := onRecording_ok.mp flushed
  obtain ⟨_, _, noted, ran⟩ := Act.bind_ok.mp ran
  obtain ⟨recording, kept, rfl⟩ := note_ok noted
  obtain ⟨_, _, got, ran⟩ := Act.bind_ok.mp ran
  obtain ⟨rfl, rfl⟩ := Act.get_ok.mp got
  obtain ⟨rfl, rfl⟩ := Act.pure_ok.mp ran
  have held := kept (Recording.holds_flush holds emptied)
  refine ⟨?_, recording, held, rfl⟩
  simp only [Draft.summary, held.ledger, held.output.2, answer]

/-- What is left is laid down, the index behind it, and the summary is that of the
file. -/
private theorem finish_ok {summary : Summary} (ran : finish before = .ok summary after)
    (known : before.headers = some headers) (holds : before.recording.Holds draft) :
    (∀ frame ∈ before.buffer.drainAll.1, frame.Writable headers) ∧
      summary = ((draft.putFrames headers before.buffer.drainAll.1).ended headers
        before.options.writeIndex).summary before.options.writeIndex
          (before.buffer.drainAll.1.foldl WaitingFrame.count (before.lastMillis, before.late)).2 ∧
      ∃ recording,
        recording.Holds ((draft.putFrames headers before.buffer.drainAll.1).ended headers
          before.options.writeIndex) ∧
        after = before.emitted before.buffer.drainAll.1 before.buffer.drainAll.2 recording := by
  obtain ⟨_, _, got, ran⟩ := Act.bind_ok.mp ran
  obtain ⟨rfl, rfl⟩ := Act.get_ok.mp got
  obtain ⟨_, drained, emptied, ran⟩ := Act.bind_ok.mp ran
  obtain ⟨_, _, got, emptied⟩ := Act.bind_ok.mp emptied
  obtain ⟨rfl, rfl⟩ := Act.get_ok.mp got
  obtain ⟨writable, recording, laid, rfl⟩ := emitBy_ok emptied known holds
  obtain ⟨_, _, found, ran⟩ := Act.bind_ok.mp ran
  obtain ⟨same, rfl⟩ := headersFor_ok.mp found
  cases known.symm.trans same
  obtain ⟨_, _, got, ran⟩ := Act.bind_ok.mp ran
  obtain ⟨rfl, rfl⟩ := Act.get_ok.mp got
  refine ⟨writable, ?_⟩
  cases asked : before.options.writeIndex with
  | false =>
    simp only [emitted_options, asked] at ran
    obtain ⟨told, recording, held, rfl⟩ := conclude_ok ran laid (Bool.false_and _).symm
    exact ⟨told, recording, held, rfl⟩
  | true =>
    simp only [emitted_options, asked, if_true] at ran
    obtain ⟨indexed, _, wrote, ran⟩ := Act.bind_ok.mp ran
    obtain ⟨recording, answered, rfl⟩ := onRecording_ok.mp wrote
    obtain ⟨answer, indexed⟩ := Recording.holds_writeIndex laid answered
    have same : (Draft.ended headers true (draft.putFrames headers before.buffer.drainAll.1)).ledger =
        (draft.putFrames headers before.buffer.drainAll.1).ledger := Draft.ended_ledger ..
    obtain ⟨told, recording, held, rfl⟩ := conclude_ok ran indexed (by
      rw [answer, Bool.true_and]
      exact congrArg (!·.intervals.isEmpty) same.symm)
    exact ⟨told, recording, held, rfl⟩

/-- A file that is closed has all its frames and its index, and the summary says
what is in it. -/
theorem close_ok {summary : Summary} (ran : close before = .ok summary after)
    (known : before.headers = some headers) (holds : before.recording.Holds draft) :
    (∀ frame ∈ before.buffer.drainAll.1, frame.Writable headers) ∧
      summary = ((draft.putFrames headers before.buffer.drainAll.1).ended headers
        before.options.writeIndex).summary before.options.writeIndex
          (before.buffer.drainAll.1.foldl WaitingFrame.count (before.lastMillis, before.late)).2 ∧
      after.headers = some headers ∧ after.converter = before.converter ∧
      after.recording.Holds ((draft.putFrames headers before.buffer.drainAll.1).ended headers
        before.options.writeIndex) := by
  obtain ⟨_, _, expected, ran⟩ := Act.bind_ok.mp ran
  obtain ⟨phase, rfl⟩ := expect_ok.mp expected
  obtain ⟨_, _, turned, ran⟩ := Act.bind_ok.mp ran
  cases Act.modify_ok.mp turned
  obtain ⟨told, _, finished, ran⟩ := Act.bind_ok.mp ran
  obtain ⟨writable, sums, recording, held, rfl⟩ := finish_ok (orFail_ok.mp finished) known holds
  obtain ⟨_, _, turned, ran⟩ := Act.bind_ok.mp ran
  cases Act.modify_ok.mp turned
  obtain ⟨_, _, noted, ran⟩ := Act.bind_ok.mp ran
  obtain ⟨last, kept, rfl⟩ := note_ok noted
  obtain ⟨rfl, rfl⟩ := Act.pure_ok.mp ran
  exact ⟨writable, sums, known, rfl, kept held⟩

end Session

end NutContainer
