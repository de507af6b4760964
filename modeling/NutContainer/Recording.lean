import NutContainer.FrameRecord
import NutContainer.Index
import NutContainer.Output
import NutContainer.Signed64

/-!
Laying a file down: headers, then frames with sync points before some of them,
then perhaps an index. A sync point is where a reader can start; one stands before
the first frame and before every frame that would otherwise end too far from the
last one. It carries the time of the frame that follows, and how far back to look
for the one before it.

Books are kept as the bytes go out: a sync point is entered when its packet is
complete, a frame when its payload is. A failure in between leaves the books with
what is really there, and a caller may go on.

Positions are counted by the sink. A distance back to a place that lies ahead, as
after an exchange of sinks, cannot be taken, and neither can a frame header be
spelled out whose time does not fit a word: there the writer crashes, before it
writes anything.
-/
namespace NutContainer

/-- A file in the making. -/
structure Recording where
  ledger : Ledger
  output : Output

namespace Recording

/-- Room for a frame header when the distance to the last sync point is judged. -/
def frameAllowance : Nat := 30

/-- A file without bytes, and books for as many streams as there will be. -/
def fresh (policy : Sink.Policy) (streamCount : Nat) : Recording :=
  ⟨.empty streamCount, .fresh policy⟩

/-- Runs an action of the output. -/
def onOutput (act : Act Output α) : Act Recording α := fun ⟨ledger, output⟩ =>
  match act output with
  | .ok value output => .ok value ⟨ledger, output⟩
  | .error failure output => .error failure ⟨ledger, output⟩

/-- Changes the books. -/
def book (change : Ledger → Ledger) : Act Recording Unit := fun ⟨ledger, output⟩ =>
  .ok () ⟨change ledger, output⟩

/-- Looks into the books. -/
def books : Act Recording Ledger := fun recording => .ok recording.ledger recording

/-- Writes the file's mark and all headers. -/
def writeHeaders (headers : Headers) : Act Recording Unit := onOutput do
  Output.write fileMark
  let _ ← Output.writePacket ⟨Startcode.mainHeader, headers.main.encode⟩
  headers.streams.forM fun stream => do
    let _ ← Output.writePacket ⟨Startcode.streamHeader, stream.encode⟩
  let position ← Output.position
  Output.note (.headersWritten headers.streams.length position)

/-- A frame of the given size at the given position needs a sync point first. -/
def needsSyncpoint (ledger : Ledger) (maxDistance : UInt32) (position size : Nat) : Bool :=
  match ledger.lastSyncpoint? with
  | none => true
  | some last => last + maxDistance.toNat ≤ position + size + frameAllowance

/-- The sync point in front of a frame. The distance back is in units of 16 bytes,
rounded down, and zero at the first one. -/
def syncpoint (ledger : Ledger) (clocks : Nat) (stream : UInt32) (pts position : Nat) : Packet :=
  let back := (ledger.lastSyncpoint?.map fun last => (position - last) / Index.unit).getD 0
  ⟨Startcode.syncpoint, Field.encodeAll [.time pts stream.toNat clocks, .unsigned back]⟩

/-- Writes a sync point and opens its interval. -/
def writeSyncpoint (headers : Headers) (stream : UInt32) (pts : Nat) : Act Recording Unit := do
  let position ← onOutput Output.position
  let ledger ← books
  Act.insist (∀ last ∈ ledger.lastSyncpoint?, last ≤ position)
  let _ ← onOutput (Output.writePacket (syncpoint ledger headers.clockCount stream pts position))
  book (·.addSyncpoint position)
  onOutput (Output.note (.syncpointWritten (ledger.intervals.length + 1) position))

/-- The frame code of all frames that are written. -/
def frameCode (headers : Headers) : FrameCode := headers.main.frameCodes.get FrameCodeTable.genericCode

/-- Writes a frame without looking at sync points, and tells its size. -/
def writeRecord (headers : Headers) (header : StreamHeader) (stream : UInt32) (pts : Nat)
    (payload : Bytes) : Act Recording Nat := do
  let start ← onOutput Output.position
  onOutput (Output.write (FrameRecord.header header (frameCode headers) pts payload.length))
  onOutput (Output.write payload)
  book (·.addFrame headers.main.timeBases stream pts)
  onOutput (Output.note (.frameWritten stream pts payload.length start))
  let stop ← onOutput Output.position
  return stop - start

/-- Writes a frame, a sync point first if it needs one, and tells the size of the
frame alone. Nothing is written for a stream that the file does not have or for a
time that cannot be coded. -/
def writeFrame (headers : Headers) (stream : UInt32) (pts : Nat) (payload : Bytes) :
    Act Recording Nat :=
  match headers.stream? stream with
  | none => Act.refuse (.unknownStream stream)
  | some header => do
    if (codedTime? pts stream.toNat headers.clockCount).isNone then
      Act.refuse (.invalidTimestamp stream (min (pts : Int) Signed64.greatest))
    Act.insist (FrameRecord.Fits header (frameCode headers) pts payload.length)
    let position ← onOutput Output.position
    let ledger ← books
    if needsSyncpoint ledger headers.main.maxDistance position payload.length then
      writeSyncpoint headers stream pts
    writeRecord headers header stream pts payload

/-- Writes the index of a file that has sync points, and tells whether there is
one. -/
def writeIndex (headers : Headers) : Act Recording Bool := do
  let ledger ← books
  if ledger.intervals.isEmpty then
    return false
  else
    Act.insist (Index.Climbs 0 (ledger.syncpoints.map (· / Index.unit)))
    let size ← onOutput (Output.writePacket (Index.packet ledger headers.clockCount))
    onOutput (Output.note (.indexWritten ledger.intervals.length size))
    return true

end Recording

end NutContainer
