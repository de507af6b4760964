import NutContainer.Converter
import NutContainer.FrameSupply
import NutContainer.Options
import NutContainer.OrderingBuffer
import NutContainer.Recording
import NutContainer.Timestamp

/-!
A session makes one file: headers once, then frames in any order, then the end.
Frames become bytes as they come in, wait until they are a window behind the
latest one, and are written by time.

The phase of a session says which call is in turn. A call out of turn, and any
call that is refused, ends the session for good; what has been written stays, and
the file must be thrown away. A session that was closed stays closed. A call that
crashes leaves everything as it was at that moment, the phase included.

A frame is tested when it comes in, so that nothing that waits can turn out to be
impossible to write.
-/
namespace NutContainer

/-- Which call is in turn. -/
inductive Phase where
  /-- No headers yet. -/
  | created
  /-- Frames are accepted. -/
  | accepting
  /-- The last frames and the index are being written. -/
  | closing
  | closed
  /-- Something went wrong. -/
  | failed
  deriving DecidableEq, Repr

namespace Phase

def name : Phase → String
  | created => "created"
  | accepting => "open"
  | closing => "closing"
  | closed => "closed"
  | failed => "failed"

/-- All phases, in the order in which a session can pass through them. -/
def all : List Phase := [created, accepting, closing, closed, failed]

/-- Where a call out of turn leads. -/
def afterMisuse : Phase → Phase
  | closed => closed
  | _ => failed

end Phase

/-- What a session has done. -/
structure Summary where
  frames : Nat
  /-- By stream. -/
  frameCounts : List Nat
  syncpoints : Nat
  /-- The size of the file in bytes. -/
  size : Nat
  indexed : Bool
  /-- How many frames were written after a later one. -/
  late : Nat
  deriving DecidableEq, Repr

/-- A file being made from frames. -/
structure Session where
  converter : Converter
  options : Options
  phase : Phase
  /-- The file's headers, once they are written. -/
  headers : Option Headers
  buffer : OrderingBuffer
  recording : Recording
  /-- The latest time among the frames written, in milliseconds. -/
  lastMillis : Option Int
  late : Nat

namespace Session

/-- The name of the file format. -/
def formatName : String := "nut"

/-- A session that nothing was asked of. -/
def start (format : ImageFormat) (options : Options) (policy : Sink.Policy) :
    Except Fault Session := do
  options.validate
  return {
    converter := ⟨format, options.generateImages⟩
    options
    phase := .created
    headers := none
    buffer := .empty options.windowMillis
    recording := .fresh policy 0
    lastMillis := none
    late := 0 }

/-- Runs an action of the file. -/
def onRecording (act : Act Recording α) : Act Session α :=
  fun ⟨converter, options, phase, headers, buffer, recording, lastMillis, late⟩ =>
    match act recording with
    | .ok value recording =>
      .ok value ⟨converter, options, phase, headers, buffer, recording, lastMillis, late⟩
    | .error failure recording =>
      .error failure ⟨converter, options, phase, headers, buffer, recording, lastMillis, late⟩

/-- Adds to the journal. -/
def note (notice : Notice) : Act Session Unit :=
  onRecording (Recording.onOutput (Output.note notice))

/-- Passes only in the given phase. -/
def expect (phase : Phase) (operation : String) : Act Session Unit := fun session =>
  if session.phase = phase then .ok () session
  else
    .error (.refused (.wrongPhase operation session.phase.name))
      { session with phase := session.phase.afterMisuse }

/-- An action whose refusal ends the session. A crash comes to no end at all. -/
def orFail (act : Act Session α) : Act Session α := fun session =>
  match act session with
  | .ok value session => .ok value session
  | .error (.refused fault) session => .error (.refused fault) { session with phase := .failed }
  | .error .crash session => .error .crash session

/-- A result that was found without touching the session. -/
def settle : Except Failure α → Act Session α
  | .ok value => pure value
  | .error failure => throw failure

/-- The headers, without which nothing but headers can be written. -/
def headersFor (operation : String) : Act Session Headers := fun session =>
  match session.headers with
  | some headers => .ok headers session
  | none => .error (.refused (.wrongPhase operation session.phase.name)) session

/-- Derives the headers from the streams and writes them. -/
def writeHeaders (streams : List StreamDescriptor) : Act Session Unit := do
  expect .created "write_header"
  let session ← get
  let plan : HeaderPlan :=
    ⟨session.converter.format.fourcc, session.options.maxDistance, session.options.maxPtsDistance⟩
  orFail do
    let headers ← settle (Failure.ofRefusal (plan.build streams))
    onRecording do
      Recording.book fun _ => .empty headers.streams.length
      Recording.writeHeaders headers
    modify fun session => { session with headers := some headers, phase := .accepting }

/-- Writes a frame that has waited, and remarks on it if a later one is out
already. -/
def emit (frame : WaitingFrame) : Act Session Unit := do
  let headers ← headersFor "emit"
  let session ← get
  match session.lastMillis with
  | some last =>
    if frame.millis < last then
      modify fun session => { session with late := session.late + 1 }
      note (.frameLate frame.stream frame.pts frame.millis last session.buffer.window)
  | none => pure ()
  if frame.pts < 0 then
    Act.refuse (.invalidTimestamp frame.stream frame.pts)
  let _ ← onRecording (Recording.writeFrame headers frame.stream frame.pts.toNat frame.payload)
  modify fun session =>
    { session with lastMillis := some (session.lastMillis.elim frame.millis (max · frame.millis)) }

/-- Writes what repeated pops let go, at most `count` frames. -/
def emitBy (pop? : OrderingBuffer → Option (WaitingFrame × OrderingBuffer)) :
    (count : Nat) → Act Session Unit
  | 0 => pure ()
  | count + 1 => do
    let session ← get
    match pop? session.buffer with
    | none => pure ()
    | some (frame, buffer) =>
      set { session with buffer }
      emit frame
      emitBy pop? count

/-- Writes all frames that are ready. -/
def tick : Act Session Unit := do
  let session ← get
  emitBy OrderingBuffer.popReady? session.buffer.size

/-- Writes all waiting frames. -/
def drain : Act Session Unit := do
  let session ← get
  emitBy OrderingBuffer.popOldest? session.buffer.size

/-- The millisecond at which a frame is put in order, if the frame can be
written at all: its stream exists, its time is not negative and can be coded, and
the millisecond is in range. -/
def placement (headers : Headers) (stream : UInt32) (pts : Int) : Except Fault Int :=
  match headers.stream? stream with
  | none => .error (.unknownStream stream)
  | some header =>
    if pts < 0 ∨ (codedTime? pts.toNat stream.toNat headers.clockCount).isNone then
      .error (.invalidTimestamp stream pts)
    else
      match Timestamp.millis? ⟨pts, header.timeBase⟩ with
      | some millis => .ok millis
      | none => .error (.invalidTimestamp stream pts)

/-- Takes in a frame's bytes and writes what that makes ready. -/
def accept (stream : UInt32) (pts : Int) (payload : Bytes) : Act Session Unit := do
  expect .accepting "admit"
  orFail do
    let headers ← headersFor "admit"
    let millis ← settle (Failure.ofRefusal (placement headers stream pts))
    modify fun session => { session with buffer := session.buffer.push stream pts millis payload }
    tick

/-- Turns a frame into bytes and takes them in. -/
def writeFrame (frame : Frame) : Act Session Unit := do
  expect .accepting "write_frame"
  let session ← get
  let converted ← orFail do
    let headers ← headersFor "write_frame"
    match headers.stream? frame.stream with
    | some header => settle (session.converter.convert header frame)
    | none => Act.refuse (.unknownStream frame.stream)
  converted.notices.forM note
  accept frame.stream frame.pts converted.bytes

/-- Writes what is left and sums up. -/
def finish : Act Session Summary := do
  let pending := (← get).buffer.size
  drain
  let headers ← headersFor "close"
  let session ← get
  let indexed ← if session.options.writeIndex then onRecording (Recording.writeIndex headers)
    else pure false
  onRecording (Recording.onOutput Output.flush)
  note (.drained pending)
  let session ← get
  let ledger := session.recording.ledger
  return {
    frames := ledger.frameTotal
    frameCounts := ledger.frameCounts
    syncpoints := ledger.intervals.length
    size := session.recording.output.sink.position
    indexed
    late := session.late }

/-- Ends the session. -/
def close : Act Session Summary := do
  expect .accepting "close"
  modify fun session => { session with phase := .closing }
  let summary ← orFail finish
  modify fun session => { session with phase := .closed }
  note (.sessionClosed summary.frames summary.syncpoints summary.size)
  return summary

/-- Makes a whole file from a supply. A fault of the supply itself is passed on
and leaves the session as it is. -/
def mux (supply : FrameSupply) : Act Session Summary := do
  let streams ← settle (Failure.ofRefusal supply.streams)
  writeHeaders streams
  supply.frames.forM writeFrame
  match supply.ending with
  | some fault => Act.refuse fault
  | none => close

end Session

end NutContainer
