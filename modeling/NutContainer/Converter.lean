import NutContainer.Frame
import NutContainer.Header
import NutContainer.Image.Format
import NutContainer.Notice

/-!
From a frame to the bytes that stand for it in the file. The class of the stream
decides what is accepted: pictures or finished bytes, whichever the converter was
set up for, on a video stream, and samples on an audio stream. A payload of the
wrong kind is refused before its content is looked at.

A coded picture must fill its frame exactly. Finished bytes are the caller's
business and only draw a notice when they do not; likewise samples that do not
fill all channels. The size of a frame is a word of 64 bits: where the stream's
sides make it larger, the conversion crashes, and so it does for samples without
channels to go to.
-/
namespace NutContainer

/-- How the frames of a session become bytes. -/
structure Converter where
  format : ImageFormat
  /-- Video frames carry pictures; otherwise they carry finished bytes. -/
  generateImages : Bool

/-- The bytes of one frame and what there is to say about them. -/
structure Converted where
  bytes : Bytes
  notices : List Notice
  deriving DecidableEq, Repr

/-- How many bytes a picture takes without padding. -/
def frameSize (width height : UInt32) (format : PixelFormat) : Nat :=
  width.toNat * height.toNat * format.bytesPerPixel

/-- A sample as four bytes, most significant first, in two's complement. -/
def sampleBytes (sample : Int32) : Bytes := .ofWord32 sample.toUInt32

namespace Converter

/-- The kind of payload that video streams take. -/
def videoKind (converter : Converter) : PayloadKind :=
  if converter.generateImages then .image else .buffer

/-- The settings of a converter in one line. -/
def toText (converter : Converter) : String :=
  let layout := converter.format.pixelFormat.label
  s!"FrameConverter \x7b pixel_format: {layout}, generate_images: {converter.generateImages} \x7d"

/-- The bytes of a picture, which must have the size that the stream declares and come to
as many as a frame has. -/
def convertImage (converter : Converter) (header : StreamHeader) (width height : UInt32)
    (expected : Nat) (picture : Image) : Except Fault Converted :=
  if picture.width = width ∧ picture.height = height then do
    let bytes ← converter.format.encode picture
    if bytes.length = expected then return ⟨bytes, []⟩
    else .error (.imageCoding (.wrongSize header.stream bytes.length expected))
  else .error (.imageSize header.stream width height picture.width picture.height)

/-- Finished bytes as they are, with a notice if a frame has another number of them. -/
def passBuffer (header : StreamHeader) (width height : UInt32) (expected : Nat) (bytes : Bytes) :
    Converted :=
  if bytes.length = expected then ⟨bytes, []⟩
  else ⟨bytes, [.oddBufferSize header.stream bytes.length width height expected]⟩

def convertVideo (converter : Converter) (header : StreamHeader) (payload : Payload) :
    Except Failure Converted :=
  let (width, height) := header.videoSize?.getD (0, 0)
  let size := Failure.inWord (frameSize width height converter.format.pixelFormat)
  match converter.videoKind, payload with
  | .image, .image picture => do
    Failure.ofRefusal (converter.convertImage header width height (← size) picture)
  | .buffer, .buffer bytes => return passBuffer header width height (← size) bytes
  | expected, _ =>
    .error (.refused (.payloadMismatch header.stream expected.name payload.kind.name))

/-- What there is to say about a number of samples on a stream. -/
def sampleNotices (header : StreamHeader) (count : Nat) : Except Failure (List Notice) :=
  match header.params with
  | .audio _ channels =>
    if channels = 0 then .error .crash
    else if count % channels.toNat = 0 then .ok []
    else .ok [.unevenSamples header.stream count channels]
  | .video .. => .ok []

def convertAudio (header : StreamHeader) (payload : Payload) : Except Failure Converted :=
  match payload with
  | .samples sound => return ⟨sound.flatMap sampleBytes, ← sampleNotices header sound.length⟩
  | _ => .error (.refused
      (.payloadMismatch header.stream PayloadKind.samples.name payload.kind.name))

/-- The bytes of a frame on the stream with the given header. -/
def convert (converter : Converter) (header : StreamHeader) (frame : Frame) :
    Except Failure Converted :=
  match header.kind with
  | .video => converter.convertVideo header frame.payload
  | .audio => convertAudio header frame.payload

end Converter

end NutContainer
