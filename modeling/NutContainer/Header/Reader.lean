import NutContainer.FrameCode.Reader
import NutContainer.Header

/-!
Headers out of their payloads. A payload is read to its end and refused if
anything is left over. A stream header names its clock by number only, so its
reader must be told what the clocks are.
-/
namespace NutContainer

/-- Reads both parts of a ratio. -/
def Ratio.read? (bytes : Bytes) : Option (Ratio × Bytes) := do
  let (num, bytes) ← Varint.readWord32? bytes
  let (den, bytes) ← Varint.readWord32? bytes
  return (⟨num, den⟩, bytes)

/-- The class that a number stands for. -/
def StreamClass.ofCode? : Nat → Option StreamClass
  | 0 => some .video
  | 1 => some .audio
  | _ => none

/-- The main header in a payload. -/
def MainHeader.read? (payload : Bytes) : Option MainHeader := do
  let (version, bytes) ← Varint.read? payload
  let (streamCount, bytes) ← Varint.readWord32? bytes
  let (maxDistance, bytes) ← Varint.readWord32? bytes
  let (clockCount, bytes) ← Varint.read? bytes
  let (timeBases, bytes) ← Bytes.many? Ratio.read? clockCount bytes
  let (frameCodes, bytes) ← FrameCodeTable.read? bytes
  let (elided, bytes) ← Varint.read? bytes
  if elided = 0 ∧ bytes = [] then
    some ⟨version, streamCount, maxDistance, timeBases, frameCodes⟩
  else none

namespace StreamHeader

/-- Reads the parameters of a class. -/
def readParams? (kind : StreamClass) (bytes : Bytes) : Option (StreamParams × Bytes) :=
  match kind with
  | .video => do
    let (width, bytes) ← Varint.readWord32? bytes
    let (height, bytes) ← Varint.readWord32? bytes
    let (sampleWidth, bytes) ← Varint.readWord32? bytes
    let (sampleHeight, bytes) ← Varint.readWord32? bytes
    let (colourspace, bytes) ← Varint.readWord32? bytes
    return (.video width height sampleWidth sampleHeight colourspace, bytes)
  | .audio => do
    let (sampleRate, bytes) ← Ratio.read? bytes
    let (channels, bytes) ← Varint.readWord32? bytes
    return (.audio sampleRate channels, bytes)

/-- The stream header in a payload, with its clock looked up by number. -/
def read? (clock : UInt32 → Ratio) (payload : Bytes) : Option StreamHeader := do
  let (stream, bytes) ← Varint.readWord32? payload
  let (code, bytes) ← Varint.read? bytes
  let kind ← StreamClass.ofCode? code
  let (tag, bytes) ← Varint.readBlock? bytes
  let fourcc ← FourCC.ofBytes? tag
  let (timeBaseId, bytes) ← Varint.readWord32? bytes
  let (ptsShift, bytes) ← Varint.readWord32? bytes
  let (maxPtsDistance, bytes) ← Varint.readWord32? bytes
  let (decodeDelay, bytes) ← Varint.readWord32? bytes
  let (flags, bytes) ← Varint.readWord32? bytes
  let (extradata, bytes) ← Varint.readBlock? bytes
  let (params, bytes) ← readParams? kind bytes
  if bytes = [] then
    some ⟨stream, kind, fourcc, clock timeBaseId, timeBaseId, ptsShift, maxPtsDistance,
      decodeDelay, flags, extradata, params⟩
  else none

end StreamHeader

end NutContainer
