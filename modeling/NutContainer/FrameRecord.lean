import NutContainer.Checksum
import NutContainer.Header

/-!
The header of a single frame. Every frame can be decoded by itself and uses the
generic frame code, so all of its properties are spelled out, and the header has
its own checksum because it is not inside a packet. The payload follows bare.
-/
namespace NutContainer.FrameRecord

/-- What every frame states about itself. -/
def statedFlags : List FrameFlag := [.key, .codedPts, .streamId, .sizeMsb, .checksum]

/-- The numbers of a frame header can be taken: the full time fits a word, and the size
is in the range of the frame code. -/
def Fits (stream : StreamHeader) (code : FrameCode) (pts size : Nat) : Prop :=
  (stream.ptsShift.toNat < 64 ∧ pts + (1 <<< stream.ptsShift.toNat) < UInt64.size) ∧
    code.sizeLsb ≤ size ∧ code.sizeMultiplier ≠ 0

instance (stream : StreamHeader) (code : FrameCode) (pts size : Nat) :
    Decidable (Fits stream code pts size) := inferInstanceAs (Decidable (_ ∧ _))

/-- Layout of a frame header in front of its checksum. -/
def fields (stream : StreamHeader) (code : FrameCode) (pts size : Nat) : List Field :=
  [.byte FrameCodeTable.genericCode, .unsigned (FrameFlag.mask statedFlags),
    .unsigned stream.stream.toNat, .unsigned (pts + (1 <<< stream.ptsShift.toNat)),
    .unsigned ((size - code.sizeLsb) / code.sizeMultiplier)]

/-- The header of a frame with the given time and payload size. -/
def header (stream : StreamHeader) (code : FrameCode) (pts size : Nat) : Bytes :=
  let stated := Field.encodeAll (fields stream code pts size)
  stated ++ .ofWord32 (Checksum.ofBytes stated)

end NutContainer.FrameRecord
