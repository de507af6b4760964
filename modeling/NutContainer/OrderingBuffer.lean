import NutContainer.Bytes
import NutContainer.Signed64

/-!
Frames that wait for earlier ones. They are released by time, and in the order of
their arrival where times are equal. The high-water mark is the latest time that
ever arrived; a frame may leave when it is a whole window behind that mark, so
that a frame which comes late by less than the window still finds its place.

The window is at most the greatest 64-bit number, and so is the sum of a time and
the window: a sum that would be greater is held there.
-/
namespace NutContainer

/-- A frame that waits. -/
structure WaitingFrame where
  stream : UInt32
  /-- The time on the stream's own clock. -/
  pts : Int
  /-- The time on the clock that all streams share. -/
  millis : Int
  /-- How many frames arrived before. -/
  arrival : Nat
  payload : Bytes
  deriving DecidableEq, Repr

namespace WaitingFrame

/-- The order of release: by time, then by arrival. What a frame carries has no
part in it. -/
def order (first second : WaitingFrame) : Ordering :=
  (compare first.millis second.millis).then (compare first.arrival second.arrival)

/-- The first frame is released before the second. -/
def Precedes (first second : WaitingFrame) : Prop := first.order second = .lt

instance (first second : WaitingFrame) : Decidable (first.Precedes second) :=
  inferInstanceAs (Decidable (_ = _))

/-- Puts a frame at its place in a list that is in order of release. -/
def insertInto (frame : WaitingFrame) : List WaitingFrame → List WaitingFrame
  | [] => [frame]
  | first :: rest =>
    if frame.Precedes first then frame :: first :: rest else first :: insertInto frame rest

end WaitingFrame

/-- The waiting frames of a session. -/
structure OrderingBuffer where
  /-- In milliseconds. -/
  window : Int
  /-- In order of release. -/
  frames : List WaitingFrame
  /-- How many frames have arrived. -/
  arrivals : Nat
  /-- The latest time that ever arrived. -/
  highWater : Option Int
  deriving DecidableEq, Repr

namespace OrderingBuffer

/-- A buffer that no frame has reached. -/
def empty (window : Nat) : OrderingBuffer := ⟨min (window : Int) Signed64.greatest, [], 0, none⟩

/-- Takes a frame in. -/
def push (buffer : OrderingBuffer) (stream : UInt32) (pts millis : Int) (payload : Bytes) :
    OrderingBuffer where
  window := buffer.window
  frames := WaitingFrame.insertInto ⟨stream, pts, millis, buffer.arrivals, payload⟩ buffer.frames
  arrivals := buffer.arrivals + 1
  highWater := some (buffer.highWater.elim millis (max · millis))

/-- A frame is a whole window behind the mark. -/
def IsReady (window highWater : Int) (frame : WaitingFrame) : Prop :=
  Signed64.clamp (frame.millis + window) ≤ highWater

instance (window highWater : Int) (frame : WaitingFrame) :
    Decidable (IsReady window highWater frame) := inferInstanceAs (Decidable (_ ≤ _))

/-- Lets the next frame go, ready or not. -/
def popOldest? (buffer : OrderingBuffer) : Option (WaitingFrame × OrderingBuffer) :=
  match buffer.frames with
  | [] => none
  | first :: rest => some (first, { buffer with frames := rest })

/-- Lets the next frame go if it is ready. -/
def popReady? (buffer : OrderingBuffer) : Option (WaitingFrame × OrderingBuffer) :=
  match buffer.highWater, buffer.frames with
  | some highWater, first :: rest =>
    if IsReady buffer.window highWater first then some (first, { buffer with frames := rest })
    else none
  | _, _ => none

/-- What repeated pops let go, at most `count` frames, and what is left. -/
def popUpTo (pop? : OrderingBuffer → Option (WaitingFrame × OrderingBuffer)) :
    (count : Nat) → OrderingBuffer → List WaitingFrame × OrderingBuffer
  | 0, buffer => ([], buffer)
  | count + 1, buffer =>
    match pop? buffer with
    | none => ([], buffer)
    | some (first, buffer) =>
      let (frames, buffer) := popUpTo pop? count buffer
      (first :: frames, buffer)

/-- Lets all ready frames go. -/
def drainReady (buffer : OrderingBuffer) : List WaitingFrame × OrderingBuffer :=
  popUpTo popReady? buffer.frames.length buffer

/-- Lets all frames go. -/
def drainAll (buffer : OrderingBuffer) : List WaitingFrame × OrderingBuffer :=
  popUpTo popOldest? buffer.frames.length buffer

/-- How many frames wait. -/
def size (buffer : OrderingBuffer) : Nat := buffer.frames.length

/-- No frame waits. -/
def isEmpty (buffer : OrderingBuffer) : Bool := buffer.frames.isEmpty

/-- How many bytes wait. -/
def payloadSize (buffer : OrderingBuffer) : Nat :=
  buffer.frames.foldr (fun frame total => frame.payload.length + total) 0

end OrderingBuffer

end NutContainer
