import Mathlib.Algebra.CharP.Two
import Mathlib.Algebra.Field.ZMod
import Mathlib.Algebra.Polynomial.Degree.Lemmas
import Mathlib.Data.Nat.Bitwise
import Mathlib.Tactic.LinearCombination
import NutContainer.Checksum.Division

/-! Bits as coefficients. A list of bits spells a polynomial over two elements, the first bit the
highest coefficient, and so does a number of a known width. Joining lists multiplies by a power of
the variable, and exclusive or is addition; a shift of a number is both. Nothing here knows the
divisor of the checksum. -/
namespace NutContainer

namespace Checksum

/-- The bits of a number are those of its high part and then those of its low part. -/
theorem bitsOf_add (high low n : Nat) :
    bitsOf (high + low) n = bitsOf high (n >>> low) ++ bitsOf low n := by
  apply List.ext_getElem
  · simp
  · intro i _ _
    simp only [bitsOf, List.getElem_map, List.getElem_range, List.getElem_append, List.length_map,
      List.length_range, Nat.testBit_shiftRight]
    split
    · congr 1
      omega
    · congr 1
      omega

theorem bitsOf_eq_iff {width first second : Nat} :
    bitsOf width first = bitsOf width second ↔
      ∀ i < width, first.testBit i = second.testBit i := by
  rw [bitsOf, bitsOf, List.map_inj_left]
  constructor
  · intro same i inside
    have place : width - 1 - (width - 1 - i) = i := by omega
    have bits := same (width - 1 - i) (List.mem_range.mpr (by omega))
    rwa [place] at bits
  · intro same i member
    have inside := List.mem_range.mp member
    exact same _ (by omega)

theorem bitsOf_xor (width first second : Nat) :
    bitsOf width (first ^^^ second) =
      List.zipWith xor (bitsOf width first) (bitsOf width second) := by
  rw [bitsOf, bitsOf, bitsOf, List.zipWith_map, List.zipWith_self]
  simp only [Nat.testBit_xor]

@[simp] theorem length_messageBits (bytes : Bytes) :
    (messageBits bytes).length = 8 * bytes.length := by
  simp [messageBits, Nat.mul_comm]

theorem messageBits_cons (byte : UInt8) (rest : Bytes) :
    messageBits (byte :: rest) = bitsOf 8 byte.toNat ++ messageBits rest := rfl

theorem messageBits_append (front back : Bytes) :
    messageBits (front ++ back) = messageBits front ++ messageBits back := List.flatMap_append ..

theorem messageBits_xor {first second : Bytes} (same : first.length = second.length) :
    messageBits (List.zipWith (· ^^^ ·) first second) =
      List.zipWith xor (messageBits first) (messageBits second) := by
  induction first generalizing second with
  | nil => rfl
  | cons byte others ih =>
    obtain ⟨other, rest, rfl⟩ := List.exists_cons_of_length_eq_add_one same.symm
    have below : others.length = rest.length := by simpa using same
    rw [List.zipWith_cons_cons, messageBits_cons, messageBits_cons, messageBits_cons, ih below,
      UInt8.toNat_xor, bitsOf_xor, List.zipWith_append (by simp)]

end Checksum

namespace BitPolynomial

open Polynomial Checksum

/-- The polynomial with these coefficients, the first one the highest. -/
noncomputable def ofBits : List Bool → (ZMod 2)[X]
  | [] => 0
  | leading :: rest => (if leading then X ^ rest.length else 0) + ofBits rest

theorem ofBits_append (front back : List Bool) :
    ofBits (front ++ back) = ofBits front * X ^ back.length + ofBits back := by
  induction front with
  | nil => simp [ofBits]
  | cons leading rest ih =>
    cases leading with
    | false => simp [ofBits, ih]
    | true =>
      simp only [List.cons_append, ofBits, if_true, List.length_append, pow_add, ih]
      ring

theorem ofBits_zeros (count : Nat) : ofBits (List.replicate count false) = 0 := by
  induction count with
  | zero => rfl
  | succ count ih => simp [List.replicate_succ, ofBits, ih]

theorem ofBits_xor {first second : List Bool} (same : first.length = second.length) :
    ofBits (List.zipWith xor first second) = ofBits first + ofBits second := by
  induction first generalizing second with
  | nil =>
    cases List.length_eq_zero_iff.mp same.symm
    exact (add_zero 0).symm
  | cons bit others ih =>
    obtain ⟨other, rest, rfl⟩ := List.exists_cons_of_length_eq_add_one same.symm
    have below : others.length = rest.length := by simpa using same
    have twice := CharTwo.add_self_eq_zero (X ^ rest.length : (ZMod 2)[X])
    cases bit <;> cases other <;> simp [ofBits, ih below, below]
    · ring
    · ring
    · linear_combination -twice

/-- Turning one bit over adds its power. -/
theorem ofBits_modify {bits : List Bool} {place : Nat} (inside : place < bits.length) :
    ofBits (bits.modify place not) = ofBits bits + X ^ (bits.length - 1 - place) := by
  induction bits generalizing place with
  | nil => simp at inside
  | cons leading rest ih =>
    cases place with
    | zero =>
      have twice := CharTwo.add_self_eq_zero (X ^ rest.length : (ZMod 2)[X])
      cases leading
      · simp [ofBits, add_comm]
      · simp [ofBits]
        linear_combination -twice
    | succ place =>
      have below : place < rest.length := by simpa using inside
      have exponent : (leading :: rest).length - 1 - (place + 1) = rest.length - 1 - place := by
        simp
        omega
      rw [List.modify_succ_cons, ofBits, ofBits, List.length_modify, ih below, exponent, add_assoc]

theorem degree_ofBits_lt (bits : List Bool) : (ofBits bits).degree < bits.length := by
  induction bits with
  | nil => simp [ofBits]
  | cons leading rest ih =>
    have wider : (rest.length : WithBot Nat) < (leading :: rest).length :=
      Nat.cast_lt.mpr (Nat.lt_succ_self _)
    rw [ofBits]
    refine (degree_add_le _ _).trans_lt (max_lt ?_ (ih.trans wider))
    split
    · rwa [degree_X_pow]
    · rw [degree_zero]
      exact WithBot.bot_lt_coe _

theorem coeff_leading (leading : Bool) (rest : List Bool) :
    (ofBits (leading :: rest)).coeff rest.length = if leading then 1 else 0 := by
  rw [ofBits, coeff_add, coeff_eq_zero_of_degree_lt (degree_ofBits_lt rest), add_zero]
  cases leading <;> simp

/-- Bits of one width are told by their polynomial. -/
theorem ofBits_inj {first second : List Bool} (same : first.length = second.length)
    (equal : ofBits first = ofBits second) : first = second := by
  induction first generalizing second with
  | nil => exact (List.length_eq_zero_iff.mp same.symm).symm
  | cons bit others ih =>
    obtain ⟨other, rest, rfl⟩ := List.exists_cons_of_length_eq_add_one same.symm
    have below : others.length = rest.length := by simpa using same
    have leading : bit = other := by
      have coefficient := coeff_leading bit others
      rw [equal, below, coeff_leading] at coefficient
      cases bit <;> cases other <;> simp_all
    subst leading
    rw [ofBits, ofBits, below] at equal
    rw [ih below (add_left_cancel equal)]

/-- The polynomial of the low bits of a number. -/
noncomputable def ofNat (width n : Nat) : (ZMod 2)[X] := ofBits (bitsOf width n)

theorem ofNat_congr {width first second : Nat}
    (same : ∀ i < width, first.testBit i = second.testBit i) :
    ofNat width first = ofNat width second := congrArg ofBits (bitsOf_eq_iff.mpr same)

theorem ofNat_zero (width : Nat) : ofNat width 0 = 0 := by
  have zeros : bitsOf width 0 = List.replicate width false := by
    simp [bitsOf, List.map_const']
  rw [ofNat, zeros, ofBits_zeros]

theorem ofNat_xor (width first second : Nat) :
    ofNat width (first ^^^ second) = ofNat width first + ofNat width second := by
  rw [ofNat, bitsOf_xor, ofBits_xor (by simp)]
  rfl

theorem ofNat_add (high low n : Nat) :
    ofNat (high + low) n = ofNat high (n >>> low) * X ^ low + ofNat low n := by
  rw [ofNat, bitsOf_add, ofBits_append, length_bitsOf]
  rfl

theorem ofNat_shiftLeft (width count n : Nat) :
    ofNat (width + count) (n <<< count) = ofNat width n * X ^ count := by
  have low : ofNat count (n <<< count) = ofNat count 0 := ofNat_congr fun i inside => by
    simp [Nat.testBit_shiftLeft, Nat.not_le.mpr inside]
  rw [ofNat_add, low, ofNat_zero, Nat.shiftLeft_shiftRight, add_zero]

/-- Numbers that fit the width are told by their polynomial. -/
theorem ofNat_inj {width first second : Nat} (one : first < 2 ^ width) (other : second < 2 ^ width)
    (equal : ofNat width first = ofNat width second) : first = second := by
  have bits := bitsOf_eq_iff.mp (ofBits_inj (by simp) equal)
  apply Nat.eq_of_testBit_eq
  intro i
  by_cases inside : i < width
  · exact bits i inside
  · have wide : 2 ^ width ≤ 2 ^ i := Nat.pow_le_pow_right (by decide) (Nat.le_of_not_lt inside)
    rw [Nat.testBit_lt_two_pow (one.trans_le wide), Nat.testBit_lt_two_pow (other.trans_le wide)]

end BitPolynomial

end NutContainer
