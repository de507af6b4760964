import NutContainer.Decimal.Fixed
import NutContainer.Ratio
import NutContainer.Signed64

/-!
Timestamps: a count of ticks and the length of a tick. Changing the clock is
exact integer arithmetic rounded down once, so the order of two times is never
turned round; milliseconds are the clock in which streams are compared. Seconds
are for people only and go through floating point.
-/
namespace NutContainer

/-- A time, or a length of time, in ticks of a clock. -/
structure Timestamp where
  ticks : Int
  base : Ratio
  deriving DecidableEq, Repr

namespace Timestamp

/-- The same time in ticks of another clock, rounded down. There is none when
either clock is unusable, when the new tick has no length, or when the count
leaves the 64-bit range. -/
def rescale? (time : Timestamp) (target : Ratio) : Option Timestamp :=
  if time.base.IsUsable ∧ target.IsUsable ∧ target.num ≠ 0 then
    let ticks := (time.ticks * time.base.num.toNat * target.den.toNat) /
      ((time.base.den.toNat : Int) * target.num.toNat)
    if Signed64.Fits ticks then some ⟨ticks, target⟩ else none
  else none

/-- The time in whole milliseconds, rounded down. -/
def millis? (time : Timestamp) : Option Int :=
  (time.rescale? .millisecond).map ticks

/-- The time in seconds, as near as binary fractions come. -/
def seconds? (time : Timestamp) : Option Float :=
  time.base.toFloat?.map (Float.ofInt time.ticks * ·)

/-- Seconds with six places, or a word for a time without a clock. -/
def toText (time : Timestamp) : String :=
  match time.seconds?.bind Decimal.BinaryFraction.ofFloat? with
  | some seconds => seconds.toFixed 6 ++ "s"
  | none => "NOPTS"

end Timestamp

end NutContainer
