/-!
Ratios of 32-bit numbers, in the form in which a file stores them: never
reduced, and with a zero below the line allowed but marked unusable. The ratio
of a stream's clock is the length of one tick in seconds.
-/
namespace NutContainer

/-- A ratio as written, not its value: `2/4` and `1/2` differ. -/
structure Ratio where
  num : UInt32
  den : UInt32
  deriving DecidableEq, Repr

namespace Ratio

/-- One tick of a clock that ticks `rate` times a second. -/
def perSecond (rate : UInt32) : Ratio := ⟨1, rate⟩

/-- One millisecond, the tick in which all streams are compared. -/
def millisecond : Ratio := perSecond 1000

/-- A ratio has a value when nothing is divided by zero. -/
def IsUsable (ratio : Ratio) : Prop := ratio.den ≠ 0

instance (ratio : Ratio) : Decidable ratio.IsUsable := inferInstanceAs (Decidable (_ ≠ _))

/-- The nearest binary fraction, if the ratio has a value. -/
def toFloat? (ratio : Ratio) : Option Float :=
  if ratio.IsUsable then some (ratio.num.toFloat / ratio.den.toFloat) else none

/-- Both parts with a bar between them. -/
def toText (ratio : Ratio) : String := s!"{ratio.num}/{ratio.den}"

end Ratio

end NutContainer
