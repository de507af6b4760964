import NutContainer.Fault
import NutContainer.Header
import NutContainer.StreamDescriptor

/-!
Headers derived from stream descriptions. The derivation either yields headers
in which everything is set, or names one defect. Places in the list are checked
for the whole list before any single stream is looked at, so a misnumbered list
is reported as such whatever else is wrong with it; within a stream the fields
of its medium come before its clock.
-/
namespace NutContainer

/-- The greatest distance between sync points that the format allows. -/
def maxDistanceLimit : UInt32 := 65536

/-- Clock rates stay below this number. -/
def timebaseLimit : UInt32 := 0x80000000

/-- A distance between sync points must be positive and within the format's
limit. -/
def checkMaxDistance (distance : UInt32) : Except Fault Unit :=
  if distance = 0 ∨ maxDistanceLimit < distance then
    .error (.invalidArgument (.syncDistance maxDistanceLimit.toNat distance.toNat))
  else .ok ()

/-- The values of a field that a stream cannot do without. -/
def StreamDescriptor.require (stream : StreamDescriptor) (name : String) :
    Option UInt32 → Except Fault UInt32
  | none => .error (.missingField stream.id name)
  | some value =>
    if value = 0 then .error (.invalidField stream.id name .notPositive) else .ok value

/-- The first stream that is not numbered by its place. -/
def StreamDescriptor.misplaced? (streams : List StreamDescriptor) : Option (Nat × UInt32) :=
  (streams.zipIdx.find? fun (stream, index) => stream.id.toNat ≠ index).map
    fun (stream, index) => (index, stream.id)

/-- What headers need to know besides the streams. -/
structure HeaderPlan where
  /-- The tag of all picture streams. -/
  videoFourcc : FourCC
  maxDistance : UInt32 := 32767
  maxPtsDistance : UInt32 := 60000
  deriving DecidableEq, Repr

namespace HeaderPlan

/-- The format version that is written. -/
def formatVersion : Nat := 3

/-- Class, tag and parameters of a stream. Pixels are square and no colour space
is stated; sound is sampled at a whole rate. -/
def content (plan : HeaderPlan) (stream : StreamDescriptor) :
    Except Fault (StreamClass × FourCC × StreamParams) :=
  match stream.medium with
  | .video => do
    let width ← stream.require "width" stream.width
    let height ← stream.require "height" stream.height
    return (.video, plan.videoFourcc, .video width height 1 1 0)
  | .audio => do
    let rate ← stream.require "sample_rate" stream.sampleRate
    let channels ← stream.require "channels" stream.channels
    return (.audio, .pcm, .audio ⟨rate, 1⟩ channels)
  | other => .error (.unsupportedMedium stream.id other)

/-- The rate of a stream's clock. -/
def clock (stream : StreamDescriptor) : Except Fault UInt32 := do
  let rate ← stream.require "timebase" stream.timebase
  if timebaseLimit ≤ rate then
    .error (.invalidField stream.id "timebase" (.rateTooHigh timebaseLimit.toNat rate.toNat))
  else .ok rate

/-- The header of one stream. A stream's clock has the stream's number. -/
def streamHeader (plan : HeaderPlan) (stream : StreamDescriptor) :
    Except Fault StreamHeader := do
  let (kind, fourcc, params) ← plan.content stream
  let rate ← clock stream
  return {
    stream := stream.id
    kind
    fourcc
    timeBase := .perSecond rate
    timeBaseId := stream.id
    ptsShift := 0
    maxPtsDistance := plan.maxPtsDistance
    decodeDelay := 0
    flags := 0
    extradata := []
    params }

/-- The main header over finished stream headers. -/
def mainHeader (plan : HeaderPlan) (streams : List StreamHeader) : MainHeader where
  version := formatVersion
  streamCount := UInt32.ofNat streams.length
  maxDistance := plan.maxDistance
  timeBases := streams.map (·.timeBase)
  frameCodes := .generic

/-- All headers for a list of streams, or the first defect. -/
def build (plan : HeaderPlan) (streams : List StreamDescriptor) : Except Fault Headers := do
  if streams.isEmpty then
    .error .noStreams
  else
    checkMaxDistance plan.maxDistance
    match StreamDescriptor.misplaced? streams with
    | some (index, found) => .error (.misplacedStream index found)
    | none =>
      let headers ← streams.mapM plan.streamHeader
      return ⟨plan.mainHeader headers, headers⟩

end HeaderPlan

end NutContainer
