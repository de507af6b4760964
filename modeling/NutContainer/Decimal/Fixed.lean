/-!
Decimal text with a fixed count of places. The value printed is exact: a binary
floating-point number is taken apart into an integer and a power of two, and the
only rounding is the one to the last place, where a tie goes to the even digit.
The sign of the number is kept even when everything printed is zero.
-/
namespace NutContainer.Decimal

/-- A finite binary number, `mantissa * 2 ^ exponent` with a sign of its own, so
that zero has two forms. -/
structure BinaryFraction where
  negative : Bool
  mantissa : Nat
  exponent : Int
  deriving DecidableEq, Repr

/-- The leading bit of a normal mantissa, which is implied and not stored. -/
def implicitBit : Nat := 1 <<< 52

/-- The parts of a floating-point number; infinities and non-numbers have none. -/
def BinaryFraction.ofFloat? (x : Float) : Option BinaryFraction :=
  let bits := x.toBits.toNat
  let negative := bits >>> 63 == 1
  let exponent : Nat := (bits >>> 52) % 2048
  let fraction := bits % implicitBit
  if exponent = 2047 then none
  else if exponent = 0 then some ⟨negative, fraction, -1074⟩
  else some ⟨negative, implicitBit + fraction, Int.ofNat exponent - 1075⟩

/-- The quotient rounded to the nearest integer, a tie to the even one. -/
def roundDiv (num den : Nat) : Nat :=
  let quotient := num / den
  let rest := num % den
  if 2 * rest < den ∨ 2 * rest = den ∧ quotient % 2 = 0 then quotient else quotient + 1

/-- How many units of the given scale the number holds, its sign left aside. -/
def BinaryFraction.units (x : BinaryFraction) (scale : Nat) : Nat :=
  match x.exponent with
  | .ofNat up => (x.mantissa <<< up) * scale
  | .negSucc down => roundDiv (x.mantissa * scale) (1 <<< (down + 1))

/-- The digits of `n`, filled up with zeros to `width`. -/
def padded (width n : Nat) : String :=
  let digits := Nat.toDigits 10 n
  String.ofList (List.replicate (width - digits.length) '0' ++ digits)

/-- The number with exactly `places` digits after the point. -/
def BinaryFraction.toFixed (x : BinaryFraction) (places : Nat) : String :=
  let scale := Nat.pow 10 places
  let units := x.units scale
  let sign := if x.negative then "-" else ""
  let whole := toString (units / scale)
  if places = 0 then sign ++ whole
  else sign ++ whole ++ "." ++ padded places (units % scale)

end NutContainer.Decimal
