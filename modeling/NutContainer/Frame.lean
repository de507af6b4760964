import NutContainer.Image

/-!
Frames as a producer hands them over: a stream, a time on that stream's clock,
and one payload. Times need not rise, and nothing ties the payload to the stream
yet; that is checked when the frame is turned into bytes.
-/
namespace NutContainer

/-- The content of a frame. -/
inductive Payload where
  /-- A picture that is still to be coded. -/
  | image (picture : Image)
  /-- A picture's bytes in their final form. -/
  | buffer (bytes : Bytes)
  /-- Sound samples, channels interleaved. -/
  | samples (sound : List Int32)

/-- What a payload is, without its content. -/
inductive PayloadKind where
  | image
  | buffer
  | samples
  deriving DecidableEq, Repr

/-- The name of a kind in messages. -/
def PayloadKind.name : PayloadKind → String
  | image => "image"
  | buffer => "buffer"
  | samples => "samples"

namespace Payload

def kind : Payload → PayloadKind
  | image _ => .image
  | buffer _ => .buffer
  | samples _ => .samples

/-- Bytes of a picture, padding included, or the count of samples. -/
def size : Payload → Nat
  | image picture => picture.data.size
  | buffer bytes => bytes.length
  | samples sound => sound.length

end Payload

/-- A payload with its stream and time. -/
structure Frame where
  stream : UInt32
  /-- Ticks of the stream's clock. -/
  pts : Int
  payload : Payload

namespace Frame

/-- A frame with a picture. -/
def ofImage (stream : UInt32) (pts : Int) (image : Image) : Frame := ⟨stream, pts, .image image⟩

/-- A frame with a picture's final bytes, of which there must be some. -/
def ofBuffer (stream : UInt32) (pts : Int) (bytes : Bytes) : Except Fault Frame :=
  if bytes.isEmpty then .error (.emptyPayload stream) else .ok ⟨stream, pts, .buffer bytes⟩

/-- A frame with sound, of which there must be some. -/
def ofSamples (stream : UInt32) (pts : Int) (samples : List Int32) : Except Fault Frame :=
  if samples.isEmpty then .error (.emptyPayload stream) else .ok ⟨stream, pts, .samples samples⟩

/-- A frame in one line, its content left out. -/
def toText (frame : Frame) : String :=
  s!"Frame\x7bstream={frame.stream}, pts={frame.pts}, payload={frame.payload.kind.name}\x7d"

end Frame

end NutContainer
