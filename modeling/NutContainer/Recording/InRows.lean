import NutContainer.Ledger.Rows
import NutContainer.Recording.Call

/-!
Laying a file down with books in rows. Every place in the rows and among the clocks is
looked up, every distance is taken, and where one of them is missing the action stops
at once. Apart from that, the same is written in the same order: a row is entered when
the bytes that it tells of are complete.
-/
namespace NutContainer.Recording

/-- A file in the making with books in rows. -/
structure InRows where
  rows : Ledger.Rows
  output : Output

/-- The recording with its books laid out in rows. -/
def inRows (recording : Recording) : InRows := ⟨recording.ledger.rows, recording.output⟩

/-- Why a checked action ends early. -/
inductive Halt where
  | failed (failure : Failure)
  /-- A place that is not there was looked up, or a difference below zero was taken. -/
  | missing
  deriving DecidableEq, Repr

/-- An action that checks what it looks up. -/
abbrev Checked (α : Type) := EStateM Halt InRows α

namespace InRows

/-- Ends in a failure. -/
def fail (failure : Failure) : Checked α := fun recording => .error (.failed failure) recording

/-- Goes on with what was looked up, or stops if it is missing. -/
def look : Option α → Checked α
  | some value => pure value
  | none => fun recording => .error .missing recording

/-- Runs an action of the output. -/
def onOutput (act : Act Output α) : Checked α := fun ⟨rows, output⟩ =>
  match act output with
  | .ok value output => .ok value ⟨rows, output⟩
  | .error failure output => .error (.failed failure) ⟨rows, output⟩

/-- Looks into the books. -/
def books : Checked Ledger.Rows := fun recording => .ok recording.rows recording

/-- Goes on with new books. -/
def enter (rows : Ledger.Rows) : Checked Unit := fun recording => .ok () ⟨rows, recording.output⟩

/-- Writes the file's mark and all headers, which are in no books. -/
def writeHeaders (headers : Headers) : Checked Unit := onOutput do
  Output.write fileMark
  let _ ← Output.writePacket ⟨Startcode.mainHeader, headers.main.encode⟩
  headers.streams.forM fun stream => do
    let _ ← Output.writePacket ⟨Startcode.streamHeader, stream.encode⟩
  let position ← Output.position
  Output.note (.headersWritten headers.streams.length position)

/-- A frame of the given size at the given position needs a sync point first. -/
def needsSyncpoint (rows : Ledger.Rows) (maxDistance : UInt32) (position size : Nat) : Bool :=
  match rows.syncpoints.getLast? with
  | none => true
  | some last => last + maxDistance.toNat ≤ position + size + frameAllowance

/-- Writes a sync point and opens its place in every row. -/
def writeSyncpoint (headers : Headers) (stream : UInt32) (pts : Nat) : Checked Unit := do
  let position ← onOutput Output.position
  let rows ← books
  let back ← look (rows.back? position)
  let payload := Field.encodeAll [.time pts stream.toNat headers.clockCount, .unsigned back]
  let _ ← onOutput (Output.writePacket ⟨Startcode.syncpoint, payload⟩)
  enter (rows.addSyncpoint position)
  onOutput (Output.note (.syncpointWritten (rows.syncpoints.length + 1) position))

/-- Writes a frame without looking at sync points, and tells its size. -/
def writeRecord (headers : Headers) (header : StreamHeader) (stream : UInt32) (pts : Nat)
    (payload : Bytes) : Checked Nat := do
  let start ← onOutput Output.position
  onOutput (Output.write (FrameRecord.header header (frameCode headers) pts payload.length))
  onOutput (Output.write payload)
  let rows ← books
  let entered ← look (rows.addFrame? headers.main.timeBases stream pts)
  enter entered
  onOutput (Output.note (.frameWritten stream pts payload.length start))
  let stop ← onOutput Output.position
  look (Ledger.difference? stop start)

/-- Writes a frame, a sync point first if it needs one, and tells the size of the frame
alone. -/
def writeFrame (headers : Headers) (stream : UInt32) (pts : Nat) (payload : Bytes) :
    Checked Nat :=
  match headers.stream? stream with
  | none => fail (.refused (.unknownStream stream))
  | some header => do
    if (codedTime? pts stream.toNat headers.clockCount).isNone then
      fail (.refused (.invalidTimestamp stream (min (pts : Int) Signed64.greatest)))
    if ¬ FrameRecord.Fits header (frameCode headers) pts payload.length then
      fail .crash
    let position ← onOutput Output.position
    let rows ← books
    if needsSyncpoint rows headers.main.maxDistance position payload.length then
      writeSyncpoint headers stream pts
    writeRecord headers header stream pts payload

/-- Writes the index of a file that has sync points, and tells whether there is one. -/
def writeIndex (headers : Headers) : Checked Bool := do
  let rows ← books
  if rows.syncpoints.isEmpty then
    return false
  else
    let packet ← look (rows.indexPacket? headers.clockCount)
    let size ← onOutput (Output.writePacket packet)
    onOutput (Output.note (.indexWritten rows.syncpoints.length size))
    return true

end InRows

/-- What a call does where everything that is looked up is checked. -/
def Call.checkedAct (headers : Headers) : Call → Checked Answer
  | .headers => (fun _ => .done) <$> InRows.writeHeaders headers
  | .frame stream pts payload => .size <$> InRows.writeFrame headers stream pts payload
  | .index => .indexed <$> InRows.writeIndex headers

/-- Makes calls one after the other, whatever comes of them. -/
def InRows.run (headers : Headers) (recording : InRows) (calls : List Call) :
    List (Call × Except Halt Answer) × InRows :=
  attemptAll (Call.checkedAct headers) recording calls

end NutContainer.Recording
