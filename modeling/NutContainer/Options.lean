import NutContainer.Header.Plan

/-!
What a caller can choose about a session. Every choice has a default, and only
one of them can be wrong in itself.
-/
namespace NutContainer

/-- The choices for a session. -/
structure Options where
  /-- How long frames wait for earlier ones, in milliseconds. Zero lets every
  frame through at once. -/
  windowMillis : Nat := 200
  /-- Video frames carry pictures; otherwise they carry finished bytes. -/
  generateImages : Bool := true
  /-- The distance in bytes between sync points that a frame must not exceed. -/
  maxDistance : UInt32 := 32767
  maxPtsDistance : UInt32 := 60000
  /-- An index is written at the end. -/
  writeIndex : Bool := true
  deriving DecidableEq, Repr

namespace Options

/-- Refuses a distance that the format does not allow. -/
def validate (options : Options) : Except Fault Unit := checkMaxDistance options.maxDistance

end Options

end NutContainer
