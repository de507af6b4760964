import NutContainer.FourCC
import NutContainer.FrameCode
import NutContainer.Medium
import NutContainer.Ratio

/-!
The headers that open a file: one main header with what all streams share, and
one header per stream. Each is a value of its own and a list of fields; the
payload of its packet is that list spelled out. Nothing here is checked, so a
header can also be one that no description leads to.
-/
namespace NutContainer

/-- What a stream is filed as. -/
inductive StreamClass where
  | video
  | audio
  deriving DecidableEq, Repr

namespace StreamClass

/-- The number of a class in a stream header. -/
def code : StreamClass → Nat
  | video => 0
  | audio => 1

def medium : StreamClass → Medium
  | video => .video
  | audio => .audio

end StreamClass

/-- The part of a stream header that depends on its content. -/
inductive StreamParams where
  /-- Picture size, the shape of one pixel, and a colour space of which 0 says
  nothing. -/
  | video (width height sampleWidth sampleHeight colourspace : UInt32)
  | audio (sampleRate : Ratio) (channels : UInt32)
  deriving DecidableEq, Repr

/-- What all streams of a file share. -/
structure MainHeader where
  version : Nat
  streamCount : UInt32
  /-- The distance in bytes between sync points that a frame must not exceed. -/
  maxDistance : UInt32
  /-- The clocks, by number. -/
  timeBases : List Ratio
  frameCodes : FrameCodeTable
  deriving DecidableEq, Repr

namespace MainHeader

/-- How many clocks there are. -/
def clockCount (header : MainHeader) : Nat := header.timeBases.length

/-- The count of clocks in 32 bits, as the count of streams is told. -/
def clockWord (header : MainHeader) : UInt32 := UInt32.ofNat header.clockCount

/-- A list of clocks that a count of 32 bits can tell is counted exactly. -/
theorem toNat_clockWord {header : MainHeader} (few : header.clockCount < UInt32.size) :
    header.clockWord.toNat = header.clockCount :=
  UInt32.toNat_ofNat_of_lt few

/-- Layout of the main header. It ends in an empty list of elided headers. -/
def fields (header : MainHeader) : List Field :=
  [.unsigned header.version, .unsigned header.streamCount.toNat,
    .unsigned header.maxDistance.toNat, .unsigned header.clockCount]
  ++ header.timeBases.flatMap (fun base => [.unsigned base.num.toNat, .unsigned base.den.toNat])
  ++ header.frameCodes.fields
  ++ [.unsigned 0]

/-- The payload of the main header's packet. -/
def encode (header : MainHeader) : Bytes := Field.encodeAll header.fields

end MainHeader

/-- What a reader must know about one stream. -/
structure StreamHeader where
  stream : UInt32
  kind : StreamClass
  fourcc : FourCC
  timeBase : Ratio
  /-- The number of the stream's clock in the main header. -/
  timeBaseId : UInt32
  /-- Full times in frame headers are written with `2 ^ ptsShift` added. -/
  ptsShift : UInt32
  maxPtsDistance : UInt32
  decodeDelay : UInt32
  flags : UInt32
  /-- Bytes that only the stream's decoder understands. -/
  extradata : Bytes
  params : StreamParams
  deriving DecidableEq, Repr

namespace StreamHeader

def medium (header : StreamHeader) : Medium := header.kind.medium

/-- Width and height, if the stream has them. -/
def videoSize? (header : StreamHeader) : Option (UInt32 × UInt32) :=
  match header.params with
  | .video width height .. => some (width, height)
  | .audio .. => none

/-- Layout of the part that depends on content. -/
def paramFields : StreamParams → List Field
  | .video width height sampleWidth sampleHeight colourspace =>
    [.unsigned width.toNat, .unsigned height.toNat, .unsigned sampleWidth.toNat,
      .unsigned sampleHeight.toNat, .unsigned colourspace.toNat]
  | .audio sampleRate channels =>
    [.unsigned sampleRate.num.toNat, .unsigned sampleRate.den.toNat, .unsigned channels.toNat]

/-- Layout of a stream header. -/
def fields (header : StreamHeader) : List Field :=
  [.unsigned header.stream.toNat, .unsigned header.kind.code, .block header.fourcc.toBytes,
    .unsigned header.timeBaseId.toNat, .unsigned header.ptsShift.toNat,
    .unsigned header.maxPtsDistance.toNat, .unsigned header.decodeDelay.toNat,
    .unsigned header.flags.toNat, .block header.extradata]
  ++ paramFields header.params

/-- The payload of a stream header's packet. -/
def encode (header : StreamHeader) : Bytes := Field.encodeAll header.fields

end StreamHeader

/-- All headers of a file. -/
structure Headers where
  main : MainHeader
  /-- Stream headers in file order. -/
  streams : List StreamHeader
  deriving DecidableEq, Repr

namespace Headers

/-- The header at a stream's place in the list. -/
def stream? (headers : Headers) (stream : UInt32) : Option StreamHeader :=
  headers.streams[stream.toNat]?

/-- How many clocks the times in the file are told apart by. -/
def clockCount (headers : Headers) : Nat := headers.main.clockCount

end Headers

end NutContainer
