import NutContainer.Frame
import NutContainer.StreamDescriptor

/-!
Where a session can draw its input from. A supply is described by what it will
hand over: its streams or a refusal to name them, then frames, then an end that
may be a fault. A channel is a queue between a producer and a session; what the
session sees of it is again a supply.
-/
namespace NutContainer

/-- Everything that can be drawn from one source. -/
structure FrameSupply where
  streams : Except Fault (List StreamDescriptor)
  frames : List Frame
  /-- What comes after the last frame, if not a plain end. -/
  ending : Option Fault

namespace FrameSupply

/-- A supply of known streams and frames. -/
def ofList (streams : List StreamDescriptor) (frames : List Frame) : FrameSupply :=
  ⟨.ok streams, frames, none⟩

/-- Draws the next frame; none means that there are no more. -/
def next : EStateM Fault FrameSupply (Option Frame) := fun supply =>
  match supply.frames, supply.ending with
  | frame :: rest, _ => .ok (some frame) { supply with frames := rest }
  | [], none => .ok none supply
  | [], some fault => .error fault supply

end FrameSupply

/-- A queue of frames with two ends, each of which can be given up. The streams
are handed over once. -/
structure FrameChannel where
  streams : Option (List StreamDescriptor)
  queue : List Frame
  receiving : Bool

namespace FrameChannel

/-- A channel that nothing went through. -/
def fresh (streams : List StreamDescriptor) : FrameChannel := ⟨some streams, [], true⟩

/-- What asking for the streams a second time leads to. -/
def streamsTaken : Fault := .wrongPhase "streams" "consumed"

/-- Hands over the streams, the first time. -/
def takeStreams : EStateM Fault FrameChannel (List StreamDescriptor) := fun channel =>
  match channel.streams with
  | some streams => .ok streams { channel with streams := none }
  | none => .error streamsTaken channel

/-- Puts a frame in. It is refused when nobody receives any more. -/
def send (frame : Frame) : EStateM Fault FrameChannel Unit := fun channel =>
  if channel.receiving then .ok () { channel with queue := channel.queue ++ [frame] }
  else .error (.wrongPhase "send" "disconnected") channel

/-- Takes the frame that was put in first; none means that there are no more. -/
def receive : EStateM Fault FrameChannel (Option Frame) := fun channel =>
  match channel.queue with
  | frame :: rest => .ok (some frame) { channel with queue := rest }
  | [] => .ok none channel

/-- Gives up the receiving end and what waits in the queue. -/
def stopReceiving (channel : FrameChannel) : FrameChannel :=
  { channel with queue := [], receiving := false }

/-- All that a session can draw from the channel once the sending end is given
up. -/
def toSupply (channel : FrameChannel) : FrameSupply where
  streams := match channel.streams with
    | some streams => .ok streams
    | none => .error streamsTaken
  frames := channel.queue
  ending := none

end FrameChannel

end NutContainer
