import NutContainer.OrderingBuffer

/-!
What can be asked of a buffer, as a value, so that whole histories of pushes and
pops can be spoken of. A push is answered with the number of the frame, a pop with
the frame that it let go, if there was one to let go.
-/
namespace NutContainer

namespace OrderingBuffer

/-- An operation on a buffer. -/
inductive Operation where
  | push (stream : UInt32) (pts millis : Int) (payload : Bytes)
  | popReady
  | popOldest
  deriving DecidableEq, Repr

/-- What an operation is answered with. -/
inductive Reply where
  /-- The frame was taken in and has this number. -/
  | taken (arrival : Nat)
  | popped (frame : Option WaitingFrame)
  deriving DecidableEq, Repr

/-- The answer to a pop. One that lets nothing go leaves the buffer as it is. -/
def answer (buffer : OrderingBuffer) :
    Option (WaitingFrame × OrderingBuffer) → Reply × OrderingBuffer
  | none => (.popped none, buffer)
  | some (frame, rest) => (.popped (some frame), rest)

/-- Carries out an operation. -/
def operate (buffer : OrderingBuffer) : Operation → Reply × OrderingBuffer
  | .push stream pts millis payload =>
    (.taken buffer.arrivals, buffer.push stream pts millis payload)
  | .popReady => buffer.answer buffer.popReady?
  | .popOldest => buffer.answer buffer.popOldest?

/-- Carries out operations one after the other. -/
def run (buffer : OrderingBuffer) : List Operation → List Reply × OrderingBuffer
  | [] => ([], buffer)
  | first :: rest =>
    let (reply, buffer) := buffer.operate first
    let (replies, buffer) := buffer.run rest
    (reply :: replies, buffer)

theorem run_append (buffer : OrderingBuffer) (front back : List Operation) :
    buffer.run (front ++ back) =
      let (first, buffer) := buffer.run front
      let (second, buffer) := buffer.run back
      (first ++ second, buffer) := by
  induction front generalizing buffer with
  | nil => rfl
  | cons next rest ih => simp [run, ih]

end OrderingBuffer

end NutContainer
