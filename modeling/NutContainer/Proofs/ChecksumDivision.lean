import Mathlib.Algebra.Polynomial.Div
import Mathlib.RingTheory.AdjoinRoot
import NutContainer.Proofs.BitPolynomials
import NutContainer.Proofs.ChecksumResidue

/-! The checksum is a remainder. Long division on bits and the register with its table are both
followed in the residue classes of the divisor: neither ever changes the class, apart from the
powers of the variable that moving on multiplies by. A short polynomial is alone in its class, so
both end in the same bits. That the checksum is linear and knows nothing of pieces follows from
this, without another look at the table. -/
namespace NutContainer.Checksum

open Polynomial BitPolynomial

/-- The divisor with its leading one. -/
noncomputable def generator : (ZMod 2)[X] := X ^ degree + ofBits divisor

theorem generator_terms :
    generator = X ^ 32 + X ^ 26 + X ^ 23 + X ^ 22 + X ^ 16 + X ^ 12 + X ^ 11 + X ^ 10 + X ^ 8 +
      X ^ 7 + X ^ 5 + X ^ 4 + X ^ 2 + X + 1 := by
  have bits : divisor = [false, false, false, false, false, true, false, false, true, true, false,
    false, false, false, false, true, false, false, false, true, true, true, false, true, true,
    false, true, true, false, true, true, true] := by decide
  simp only [generator, bits, degree, ofBits, List.length_cons, List.length_nil]
  norm_num
  ring

theorem length_divisor : divisor.length = degree := length_bitsOf ..

theorem degree_divisor : (ofBits divisor).degree < (degree : WithBot Nat) := by
  simpa only [length_divisor] using degree_ofBits_lt divisor

theorem monic_generator : generator.Monic := monic_X_pow_add degree_divisor

theorem degree_generator : generator.degree = degree := by
  rw [generator, degree_add_eq_left_of_degree_lt, degree_X_pow]
  rw [degree_X_pow]
  exact degree_divisor

/-- The class of a polynomial when multiples of the divisor do not count. -/
noncomputable def residue : (ZMod 2)[X] →+* AdjoinRoot generator := AdjoinRoot.mk generator

theorem residue_eq_iff {first second : (ZMod 2)[X]} :
    residue first = residue second ↔ generator ∣ first - second := AdjoinRoot.mk_eq_mk

/-- A short polynomial is what division leaves of every polynomial in its class. -/
theorem eq_modByMonic_iff {bits : List Bool} (short : bits.length ≤ degree)
    {dividend : (ZMod 2)[X]} :
    ofBits bits = dividend %ₘ generator ↔ residue (ofBits bits) = residue dividend := by
  have low : (ofBits bits).degree < generator.degree := by
    rw [degree_generator]
    exact (degree_ofBits_lt bits).trans_le (Nat.cast_le.mpr short)
  rw [residue_eq_iff]
  constructor
  · intro left
    rw [left]
    refine ⟨-(dividend /ₘ generator), ?_⟩
    linear_combination modByMonic_add_div dividend generator
  · intro same
    rw [← (modByMonic_eq_self_iff monic_generator).mpr low]
    exact modByMonic_eq_of_dvd_sub monic_generator same

/-- Taking the divisor off stays in the class. -/
theorem residue_takeOff {rest : List Bool} (enough : degree ≤ rest.length) :
    residue (ofBits (takeOff rest)) = residue (ofBits (true :: rest)) := by
  obtain ⟨front, back, rfl, width⟩ :
      ∃ front back, rest = front ++ back ∧ front.length = degree :=
    ⟨rest.take degree, rest.drop degree, by simp, by simpa using enough⟩
  have taken : takeOff (front ++ back) = List.zipWith xor front divisor ++ back := by
    simp [takeOff, width]
  have lengths : front.length = divisor.length := width.trans length_divisor.symm
  have twice := CharTwo.add_self_eq_zero (X ^ back.length * ofBits divisor)
  have multiple : ofBits (takeOff (front ++ back)) - ofBits (true :: (front ++ back)) =
      generator * -X ^ back.length := by
    rw [taken, ofBits, ofBits_append, ofBits_append, ofBits_xor lengths, generator,
      List.length_append, width, if_pos rfl]
    linear_combination twice
  rw [residue_eq_iff, multiple]
  exact dvd_mul_right ..

theorem residue_remainder (dividend : List Bool) :
    residue (ofBits (remainder dividend)) = residue (ofBits dividend) := by
  induction dividend using remainder.induct with
  | case1 => rw [remainder]
  | case2 leading rest enough ih =>
    rw [remainder, if_pos enough]
    refine ih.trans ?_
    cases leading with
    | false => simp [ofBits]
    | true => exact residue_takeOff enough
  | case3 leading rest short => rw [remainder, if_neg short]

/-- Long division on bits is division of polynomials. -/
theorem ofBits_remainder (dividend : List Bool) :
    ofBits (remainder dividend) = ofBits dividend %ₘ generator :=
  (eq_modByMonic_iff (by simp [length_remainder])).mpr (residue_remainder dividend)

/-- The polynomial of a register. -/
noncomputable def ofWord (register : UInt32) : (ZMod 2)[X] := ofNat degree register.toNat

/-- The polynomial of a byte. -/
noncomputable def ofByte (byte : UInt8) : (ZMod 2)[X] := ofNat 8 byte.toNat

theorem ofWord_zero : ofWord 0 = 0 := ofNat_zero degree

theorem ofWord_xor (first second : UInt32) :
    ofWord (first ^^^ second) = ofWord first + ofWord second := by
  rw [ofWord, UInt32.toNat_xor, ofNat_xor]
  rfl

theorem ofByte_xor (first second : UInt8) :
    ofByte (first ^^^ second) = ofByte first + ofByte second := by
  rw [ofByte, UInt8.toNat_xor, ofNat_xor]
  rfl

theorem ofWord_inj {first second : UInt32} (equal : ofWord first = ofWord second) :
    first = second :=
  UInt32.toNat_inj.mp (ofNat_inj first.toNat_lt second.toNat_lt equal)

theorem generator_eq : generator = X ^ degree + ofWord polynomial := rfl

/-- A register that moves up loses the bits on top. -/
theorem ofWord_shiftLeft {count : Nat} (register : UInt32) (fits : count < degree) :
    ofWord (register <<< UInt32.ofNat count) = X ^ count * ofWord register +
      X ^ degree * ofNat count (register.toNat <<< count >>> degree) := by
  have amount : (UInt32.ofNat count).toNat % 32 = count := by
    rw [UInt32.toNat_ofNat', Nat.mod_eq_of_lt (fits.trans (by decide))]
    exact Nat.mod_eq_of_lt fits
  have kept : ofWord (register <<< UInt32.ofNat count) =
      ofNat degree (register.toNat <<< count) := by
    rw [ofWord, UInt32.toNat_shiftLeft, amount]
    exact ofNat_congr fun i inside => by
      simp [Nat.testBit_mod_two_pow _ 32, show i < 32 from inside]
  have whole := ofNat_shiftLeft degree count register.toNat
  have twice := CharTwo.add_self_eq_zero
    (X ^ degree * ofNat count (register.toNat <<< count >>> degree))
  rw [Nat.add_comm, ofNat_add] at whole
  rw [kept, ofWord]
  linear_combination whole - twice

/-- A byte at the top of an empty register. -/
theorem ofWord_toUInt32 (byte : UInt8) : ofWord (byte.toUInt32 <<< 24) = X ^ 24 * ofByte byte := by
  have room : byte.toNat <<< 24 < 2 ^ 32 := by
    have := byte.toNat_lt
    rw [Nat.shiftLeft_eq]
    omega
  have placed : (byte.toUInt32 <<< 24).toNat = byte.toNat <<< 24 := by
    simpa [UInt32.toNat_shiftLeft] using room
  rw [ofWord, placed, ofByte, mul_comm]
  exact ofNat_shiftLeft 8 24 byte.toNat

/-- The bit that falls out at the top. -/
theorem ofNat_top (register : UInt32) :
    ofNat 1 (register.toNat <<< 1 >>> degree) = if register &&& 0x80000000 = 0 then 0 else 1 := by
  have top : register &&& 0x80000000 = 0 ↔ register.toNat.testBit 31 = false := by
    have masked : register.toNat &&& 2 ^ 31 = (register.toNat.testBit 31).toNat * 2 ^ 31 :=
      Nat.and_two_pow register.toNat 31
    rw [← UInt32.toNat_inj, UInt32.toNat_and]
    change register.toNat &&& 2 ^ 31 = 0 ↔ _
    rw [masked]
    simp
  have bit : ofNat 1 (register.toNat <<< 1 >>> degree) =
      if register.toNat.testBit 31 then 1 else 0 := by
    simp [ofNat, bitsOf, ofBits, Nat.testBit_shiftLeft, degree]
  simp only [bit, top]
  cases register.toNat.testBit 31 <;> simp

/-- A bit step multiplies by the variable. -/
theorem residue_shift (register : UInt32) :
    residue (ofWord (shift register)) = residue (X * ofWord register) := by
  have moved : ofWord (register <<< 1) = X ^ 1 * ofWord register +
      X ^ degree * ofNat 1 (register.toNat <<< 1 >>> degree) :=
    ofWord_shiftLeft register (by decide)
  rw [pow_one, ofNat_top] at moved
  rw [shift]
  split at moved
  · rename_i clear
    rw [if_pos clear, moved, mul_zero, add_zero]
  · rename_i set
    have taken : ofWord (register <<< 1 ^^^ polynomial) = X * ofWord register + generator := by
      rw [ofWord_xor, moved, mul_one, add_assoc, ← generator_eq]
    rw [if_neg set, taken, residue_eq_iff, add_sub_cancel_left]

theorem residue_repeat (count : Nat) (register : UInt32) :
    residue (ofWord (Nat.repeat shift count register)) = residue (X ^ count * ofWord register) := by
  induction count with
  | zero => simp [Nat.repeat]
  | succ count ih =>
    rw [Nat.repeat, residue_shift, map_mul, ih, ← map_mul, ← mul_assoc, pow_succ']

theorem residue_tableEntry (byte : UInt8) :
    residue (ofWord (tableEntry byte)) = residue (X ^ degree * ofByte byte) := by
  rw [tableEntry, residue_repeat, ofWord_toUInt32, ← mul_assoc, ← pow_add]
  rfl

/-- A byte step makes room for a byte and adds the one that comes in at the top. What falls out is
taken along by the table. -/
theorem residue_step (register : UInt32) (byte : UInt8) :
    residue (ofWord (step register byte)) =
      residue (X ^ 8 * ofWord register + X ^ degree * ofByte byte) := by
  have top : ofNat 8 (register.toNat <<< 8 >>> degree) = ofByte (register >>> 24).toUInt8 := by
    refine ofNat_congr fun i inside => ?_
    have place : degree + i - 8 = 24 + i := by
      unfold degree
      omega
    have above : 8 ≤ degree + i := by
      unfold degree
      omega
    simp [UInt32.toNat_shiftRight, Nat.testBit_mod_two_pow _ 8, inside, place, above]
  have moved : ofWord (register <<< 8) =
      X ^ 8 * ofWord register + X ^ degree * ofByte (register >>> 24).toUInt8 := by
    rw [← top]
    exact ofWord_shiftLeft register (by decide)
  have twice := CharTwo.add_self_eq_zero (X ^ degree * ofByte (register >>> 24).toUInt8)
  rw [step, table_get, ofWord_xor, map_add, residue_tableEntry, ofByte_xor, moved, ← map_add,
    mul_add]
  refine congrArg residue ?_
  linear_combination twice

theorem residue_update (register : UInt32) (bytes : Bytes) :
    residue (ofWord (update register bytes)) = residue
      (X ^ (8 * bytes.length) * ofWord register + X ^ degree * ofBits (messageBits bytes)) := by
  induction bytes generalizing register with
  | nil => simp [messageBits, ofBits]
  | cons byte rest ih =>
    have first : ofBits (messageBits (byte :: rest)) =
        ofByte byte * X ^ (8 * rest.length) + ofBits (messageBits rest) := by
      rw [messageBits_cons, ofBits_append, length_messageBits]
      rfl
    change residue (ofWord (update (step register byte) rest)) = _
    rw [ih, map_add, map_mul, residue_step, ← map_mul, ← map_add, first, List.length_cons,
      Nat.mul_succ, pow_add]
    refine congrArg residue ?_
    ring

/-- The checksum is what division leaves of the message, moved up by the divisor's degree. -/
theorem ofWord_ofBytes (bytes : Bytes) :
    ofWord (ofBytes bytes) = (ofBits (messageBits bytes) * X ^ degree) %ₘ generator := by
  refine (eq_modByMonic_iff (length_bitsOf ..).le).mpr ?_
  change residue (ofWord (update 0 bytes)) = _
  rw [residue_update, ofWord_zero, mul_zero, zero_add, mul_comm]

theorem bitsOf_ofBytes (bytes : Bytes) :
    bitsOf degree (ofBytes bytes).toNat =
      remainder (messageBits bytes ++ List.replicate degree false) := by
  apply ofBits_inj
  · simp [length_remainder]
  · rw [ofBits_remainder, ofBits_append, ofBits_zeros, add_zero, List.length_replicate]
    exact ofWord_ofBytes bytes

theorem ofBytes_xor {first second : Bytes} (same : first.length = second.length) :
    ofBytes (List.zipWith (· ^^^ ·) first second) = ofBytes first ^^^ ofBytes second := by
  have lengths : (messageBits first).length = (messageBits second).length := by
    rw [length_messageBits, length_messageBits, same]
  apply ofWord_inj
  rw [ofWord_xor, ofWord_ofBytes, ofWord_ofBytes, ofWord_ofBytes, ← add_modByMonic,
    messageBits_xor same, ofBits_xor lengths, add_mul]

theorem update_pieces (register : UInt32) (pieces : List Bytes) :
    pieces.foldl update register = update register pieces.flatten := by
  induction pieces generalizing register with
  | nil => rfl
  | cons piece others ih => rw [List.foldl_cons, ih, List.flatten_cons, update_append]

/-- A message may be handed over in any pieces, empty ones among them: the checksum is what long
division of its bits with 32 zeros behind them leaves. As a polynomial this is the remainder of the
message moved up by the divisor's degree. So the checksum of a sum is the sum of the checksums. -/
theorem sum_of_pieces_is_remainder (pieces : List Bytes) :
    bitsOf degree (pieces.foldl update 0).toNat =
        remainder (messageBits pieces.flatten ++ List.replicate degree false) ∧
      ofWord (pieces.foldl update 0) =
        (ofBits (messageBits pieces.flatten) * X ^ 32) %ₘ (X ^ 32 + ofNat 32 0x04C11DB7) ∧
      pieces.foldl update 0 = ofBytes pieces.flatten ∧
      ∀ first second : Bytes, first.length = second.length →
        ofBytes (List.zipWith (· ^^^ ·) first second) = ofBytes first ^^^ ofBytes second := by
  have whole : pieces.foldl update 0 = ofBytes pieces.flatten := update_pieces 0 pieces
  refine ⟨?_, ?_, whole, fun _ _ => ofBytes_xor⟩
  · rw [whole]
    exact bitsOf_ofBytes _
  · rw [whole]
    exact ofWord_ofBytes _

theorem sum_of_pieces_is_remainder_sample :
    [[0x4E], [], [0x55, 0x54]].foldl update 0 = ofBytes [0x4E, 0x55, 0x54] ∧
      bitsOf degree (ofBytes [0x4E, 0x55, 0x54]).toNat =
        remainder (messageBits [0x4E, 0x55, 0x54] ++ List.replicate degree false) ∧
      ofBytes [0x4E ^^^ 0x01, 0x55 ^^^ 0x02] = ofBytes [0x4E, 0x55] ^^^ ofBytes [0x01, 0x02] := by
  obtain ⟨bits, _, whole, linear⟩ := sum_of_pieces_is_remainder [[0x4E], [], [0x55, 0x54]]
  rw [whole] at bits
  exact ⟨whole, bits, linear [0x4E, 0x55] [0x01, 0x02] rfl⟩

end NutContainer.Checksum
