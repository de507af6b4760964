import NutContainer.Medium

/-!
What a caller says about a stream before anything is written. A description is
not checked when it is made: every field may be left out, and the headers derived
from it say what was missing.
-/
namespace NutContainer

/-- A stream as its owner describes it. -/
structure StreamDescriptor where
  /-- The stream's number, which must be its place in the list. -/
  id : UInt32
  medium : Medium
  /-- Ticks per second of the stream's clock. -/
  timebase : Option UInt32
  width : Option UInt32
  height : Option UInt32
  sampleRate : Option UInt32
  channels : Option UInt32
  deriving DecidableEq, Repr

namespace StreamDescriptor

/-- A description with nothing but a number and a medium. -/
def bare (id : UInt32) (medium : Medium) : StreamDescriptor :=
  ⟨id, medium, none, none, none, none, none⟩

def withTimebase (stream : StreamDescriptor) (rate : UInt32) : StreamDescriptor :=
  { stream with timebase := some rate }

def withSize (stream : StreamDescriptor) (width height : UInt32) : StreamDescriptor :=
  { stream with width := some width, height := some height }

def withSampleRate (stream : StreamDescriptor) (rate : UInt32) : StreamDescriptor :=
  { stream with sampleRate := some rate }

def withChannels (stream : StreamDescriptor) (count : UInt32) : StreamDescriptor :=
  { stream with channels := some count }

/-- All that a stream of pictures needs. -/
def video (id timebase width height : UInt32) : StreamDescriptor :=
  ((bare id .video).withTimebase timebase).withSize width height

/-- All that a stream of sound needs. -/
def audio (id timebase sampleRate channels : UInt32) : StreamDescriptor :=
  (((bare id .audio).withTimebase timebase).withSampleRate sampleRate).withChannels channels

end StreamDescriptor

end NutContainer
