import NutContainer.FrameRecord
import NutContainer.Header.Reader
import NutContainer.Index.Reader

/-!
A whole file as a player reads it: the file mark, the headers, and then sync
points, frames and perhaps an index, each with the offset at which it begins.
Every checksum is verified, no frame may come before the first sync point, and a
frame must use a code that the table allows and spell out its stream, its full
time, its size and its checksum. Whatever breaks one of these rules makes the
whole file unreadable.
-/
namespace NutContainer

/-- One thing in the body of a file. -/
inductive Element where
  /-- A sync point with the time of the frame that follows and the distance back
  to the one before, in units of 16 bytes. -/
  | syncpoint (pts clock back : Nat)
  | frame (flags stream pts : Nat) (payload : Bytes)
  | index (contents : Index.Contents)
  deriving DecidableEq, Repr

/-- An element with the offset of its first byte. -/
structure Placed where
  offset : Nat
  element : Element
  deriving DecidableEq, Repr

/-- What a file says. -/
structure Contents where
  headers : Headers
  body : List Placed
  deriving DecidableEq, Repr

namespace Contents

/-- The sync point in a payload. -/
def readSyncpoint? (clocks : Nat) (payload : Bytes) : Option Element := do
  let (time, bytes) ← Varint.read? payload
  let (back, bytes) ← Varint.read? bytes
  if bytes = [] then some (.syncpoint (time / clocks) (time % clocks) back) else none

/-- Reads a packet of the body. -/
def readPacket? (headers : Headers) (bytes : Bytes) : Option (Element × Bytes) := do
  let (packet, bytes) ← Packet.read? bytes
  if packet.startcode = Startcode.syncpoint then
    return (← readSyncpoint? headers.clockCount packet.payload, bytes)
  else if packet.startcode = Startcode.index then
    let contents ← Index.read? headers.clockCount headers.streams.length packet.payload
    return (.index contents, bytes)
  else none

/-- All of the flags are in a mask. -/
def states (flags : Nat) (wanted : List FrameFlag) : Bool :=
  wanted.all fun flag => flags.testBit flag.bit

/-- Reads a frame. -/
def readFrame? (headers : Headers) (bytes : Bytes) : Option (Element × Bytes) := do
  let (first, rest) ← Bytes.take? 1 bytes
  let code := headers.main.frameCodes.get (first.headD 0)
  let (stated, rest) ← Varint.read? rest
  let flags := code.flags ^^^ stated
  if code.isUsable && states code.flags [.coded] && states flags FrameRecord.statedFlags then
    let (stream, rest) ← Varint.read? rest
    let header ← headers.streams[stream]?
    let (codedPts, rest) ← Varint.read? rest
    let (sizeMsb, rest) ← Varint.read? rest
    let (_, rest) ← Bytes.word32? rest
    let (payload, behind) ← Bytes.take? (sizeMsb * code.sizeMultiplier + code.sizeLsb) rest
    let offset := 1 <<< header.ptsShift.toNat
    if Checksum.IsIntact (bytes.take (bytes.length - rest.length)) ∧ offset ≤ codedPts then
      return (.frame flags stream (codedPts - offset) payload, behind)
    else none
  else none

/-- Reads one element. Only packets begin with the startcode byte; frames need a
sync point somewhere before them. -/
def readElement? (headers : Headers) (synced : Bool) (bytes : Bytes) : Option (Element × Bytes) :=
  match bytes with
  | [] => none
  | first :: _ =>
    if first = FrameCodeTable.startcodeByte then readPacket? headers bytes
    else if synced then readFrame? headers bytes
    else none

/-- Frames can follow once there is a sync point. -/
def syncs : Element → Bool
  | .syncpoint .. => true
  | _ => false

/-- Reads elements up to the end. An element that takes no bytes is refused. -/
def readBody? (headers : Headers) (synced : Bool) (offset : Nat) (bytes : Bytes) :
    Option (List Placed) :=
  if bytes = [] then some []
  else
    match readElement? headers synced bytes with
    | none => none
    | some (element, rest) =>
      if _ : rest.length < bytes.length then
        (readBody? headers (synced || syncs element) (offset + (bytes.length - rest.length)) rest).map
          (⟨offset, element⟩ :: ·)
      else none
termination_by bytes.length

/-- Reads a packet that must have the given startcode. -/
def readPayload? (startcode : UInt64) (bytes : Bytes) : Option (Bytes × Bytes) := do
  let (packet, bytes) ← Packet.read? bytes
  if packet.startcode = startcode then some (packet.payload, bytes) else none

/-- Reads one stream header's packet. -/
def readStreamHeader? (clock : UInt32 → Ratio) (bytes : Bytes) : Option (StreamHeader × Bytes) := do
  let (payload, bytes) ← readPayload? Startcode.streamHeader bytes
  return (← StreamHeader.read? clock payload, bytes)

/-- Reads the file mark and all headers. There must be a stream for every clock. The streams are
told in 32 bits and so are the clocks for the comparison, which makes a difference only where all
stream numbers are used up. -/
def readHeaders? (bytes : Bytes) : Option (Headers × Bytes) := do
  let (mark, bytes) ← Bytes.take? fileMark.length bytes
  if mark = fileMark then
    let (payload, bytes) ← readPayload? Startcode.mainHeader bytes
    let main ← MainHeader.read? payload
    if main.streamCount = main.clockWord then
      let (streams, bytes) ←
        Bytes.many? (readStreamHeader? (Ledger.tick main.timeBases)) main.clockCount bytes
      return (⟨main, streams⟩, bytes)
    else none
  else none

/-- Reads a whole file. -/
def read? (file : Bytes) : Option Contents := do
  let (headers, rest) ← readHeaders? file
  let body ← readBody? headers false (file.length - rest.length) rest
  return ⟨headers, body⟩

/-- The frames of a file in file order, as stream, time and payload. -/
def frames (contents : Contents) : List (Nat × Nat × Bytes) :=
  contents.body.filterMap fun placed =>
    match placed.element with
    | .frame _ stream pts payload => some (stream, pts, payload)
    | _ => none

/-- Offsets of the sync points in file order. -/
def syncpoints (contents : Contents) : List Nat :=
  contents.body.filterMap fun placed =>
    match placed.element with
    | .syncpoint .. => some placed.offset
    | _ => none

/-- The index with its offset, if there is one. -/
def index? (contents : Contents) : Option (Nat × Index.Contents) :=
  contents.body.findSome? fun placed =>
    match placed.element with
    | .index found => some (placed.offset, found)
    | _ => none

end Contents

end NutContainer
