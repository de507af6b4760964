import NutContainer.Checksum

/-!
The checksum as arithmetic on polynomials over two elements. The bits of a
message are the coefficients of a polynomial, the first bit the highest one; the
checksum is what long division leaves of the message with 32 zeros behind it.

Division here works on the bits alone. It takes the divisor off wherever the
leading coefficient is one, and knows neither a register nor a table.
-/
namespace NutContainer.Checksum

/-- The low bits of a number, the highest of them first. -/
def bitsOf (width n : Nat) : List Bool := (List.range width).map fun i => n.testBit (width - 1 - i)

/-- The coefficients of a message, highest first. -/
def messageBits (bytes : Bytes) : List Bool := bytes.flatMap fun byte => bitsOf 8 byte.toNat

/-- The degree of the divisor. -/
def degree : Nat := 32

/-- The divisor's coefficients below its leading one. -/
def divisor : List Bool := bitsOf degree polynomial.toNat

/-- Takes the divisor off the front of a dividend whose leading one is already
gone. -/
def takeOff (rest : List Bool) : List Bool :=
  List.zipWith xor (rest.take degree) divisor ++ rest.drop degree

/-- What long division by the divisor leaves. Dividends of a lower degree are
their own remainder. -/
def remainder : List Bool → List Bool
  | [] => []
  | leading :: rest =>
    if degree ≤ rest.length then remainder (if leading then takeOff rest else rest)
    else leading :: rest
termination_by dividend => dividend.length
decreasing_by
  split <;> simp [takeOff, divisor, bitsOf]
  omega

@[simp] theorem length_bitsOf (width n : Nat) : (bitsOf width n).length = width := by
  simp [bitsOf]

theorem length_takeOff {rest : List Bool} (enough : degree ≤ rest.length) :
    (takeOff rest).length = rest.length := by
  simp [takeOff, divisor]
  omega

/-- A remainder has as many coefficients as the divisor's degree, unless the
dividend had fewer. -/
theorem length_remainder (dividend : List Bool) :
    (remainder dividend).length = min dividend.length degree := by
  induction h : dividend.length using Nat.strongRecOn generalizing dividend with
  | ind n ih =>
    subst h
    match dividend with
    | [] => simp [remainder]
    | leading :: rest =>
      rw [remainder]
      by_cases enough : degree ≤ rest.length
      · have same : (if leading then takeOff rest else rest).length = rest.length := by
          split <;> simp [length_takeOff enough]
        rw [if_pos enough, ih rest.length (by simp) _ same, List.length_cons]
        omega
      · simp only [if_neg enough, List.length_cons]
        omega

end NutContainer.Checksum
