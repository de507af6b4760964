import Mathlib.RingTheory.Coprime.Lemmas
import Mathlib.RingTheory.Polynomial.DegreeLT
import NutContainer.FrameRecord
import NutContainer.Proofs.ChecksumDivision
import NutContainer.Proofs.PacketCodec

/-! What a reader detects who looks at nothing but whether something is left over. A string is
intact when the divisor divides its polynomial. Only one sum does that for a message, and a burst
of damage within 32 bits never takes an intact string to another: it adds a power of the variable,
which the divisor shares no factor with, times a polynomial that is too short for the divisor. No
bound on the length of the string comes in. -/
namespace NutContainer.Checksum

open Polynomial BitPolynomial

/-- Turns one bit over. Bits are counted from the front, each byte's highest first. -/
def flipBit (bytes : Bytes) (place : Nat) : Bytes :=
  bytes.modify (place / 8) (· ^^^ 0x80 >>> UInt8.ofNat (place % 8))

/-- Turns bits over one after the other. -/
def flipBits (places : List Nat) (bytes : Bytes) : Bytes := places.foldl flipBit bytes

/-- At least one bit of a string of this many bytes, and all of them within 32 neighbouring
ones. -/
structure IsBurst (size : Nat) (places : List Nat) : Prop where
  some : places ≠ []
  distinct : places.Nodup
  near : ∃ start, ∀ place ∈ places, start ≤ place ∧ place < start + 32
  inside : ∀ place ∈ places, place < 8 * size

theorem length_flipBit (bytes : Bytes) (place : Nat) :
    (flipBit bytes place).length = bytes.length := List.length_modify ..

theorem length_flipBits (places : List Nat) (bytes : Bytes) :
    (flipBits places bytes).length = bytes.length := by
  induction places generalizing bytes with
  | nil => rfl
  | cons place others ih => rw [flipBits, List.foldl_cons, ← flipBits, ih, length_flipBit]

theorem getElem_messageBits {bytes : Bytes} {place : Nat} (inside : place / 8 < bytes.length)
    (counted : place < (messageBits bytes).length) :
    (messageBits bytes)[place] = bytes[place / 8].toNat.testBit (7 - place % 8) := by
  induction bytes generalizing place with
  | nil => simp at inside
  | cons byte rest ih =>
    simp only [messageBits_cons, List.getElem_append, length_bitsOf]
    split
    · rename_i first
      simp [bitsOf, Nat.div_eq_of_lt first, Nat.mod_eq_of_lt first]
    · rename_i later
      obtain ⟨place, rfl⟩ := Nat.exists_eq_add_of_le' (Nat.le_of_not_lt later)
      have next : (place + 8) / 8 = place / 8 + 1 := Nat.add_div_right place (by decide)
      simp only [next, List.length_cons, Nat.add_lt_add_iff_right] at inside
      simp only [Nat.add_sub_cancel, next, List.getElem_cons_succ, Nat.add_mod_right]
      exact ih inside _

/-- Of all bits, exactly the one at the place is turned. -/
theorem messageBits_flipBit (bytes : Bytes) (place : Nat) :
    messageBits (flipBit bytes place) = (messageBits bytes).modify place not := by
  have mask : ∀ bit < 8, ∀ other < 8,
      ((0x80 : UInt8) >>> UInt8.ofNat bit).toNat.testBit (7 - other) = decide (bit = other) := by
    decide
  apply List.ext_getElem
  · simp [length_flipBit]
  · intro i flipped counted
    have inside : i / 8 < bytes.length := by
      rw [length_messageBits, length_flipBit] at flipped
      omega
    have masked := mask (place % 8) (Nat.mod_lt _ (by decide)) (i % 8) (Nat.mod_lt _ (by decide))
    rw [getElem_messageBits (by rwa [length_flipBit]), List.getElem_modify,
      getElem_messageBits inside]
    simp only [flipBit, List.getElem_modify]
    by_cases byte : place / 8 = i / 8
    · rw [if_pos byte, UInt8.toNat_xor, Nat.testBit_xor, masked]
      by_cases hit : place = i
      · simp [hit]
      · have missed : place % 8 ≠ i % 8 := by omega
        simp [hit, missed]
    · have apart : place ≠ i := fun same => byte (congrArg (· / 8) same)
      rw [if_neg byte, if_neg apart]

/-- Each bit that is turned adds its power. -/
theorem ofBits_flipBits {places : List Nat} {bytes : Bytes}
    (inside : ∀ place ∈ places, place < 8 * bytes.length) :
    ofBits (messageBits (flipBits places bytes)) = ofBits (messageBits bytes) +
      (places.map fun place => X ^ (8 * bytes.length - 1 - place)).sum := by
  induction places generalizing bytes with
  | nil => simp [flipBits]
  | cons place others ih =>
    have first : place < (messageBits bytes).length := by
      rw [length_messageBits]
      exact inside place (by simp)
    have rest : ∀ other ∈ others, other < 8 * (flipBit bytes place).length := by
      intro other member
      rw [length_flipBit]
      exact inside other (by simp [member])
    rw [flipBits, List.foldl_cons, ← flipBits, ih rest, length_flipBit, messageBits_flipBit,
      ofBits_modify first, length_messageBits, List.map_cons, List.sum_cons, add_assoc]

/-- The divisor ends in a one, so it shares no factor with a power of the variable. -/
theorem coprime_power (exponent : Nat) : IsCoprime generator (X ^ exponent) := by
  have ends : X ∣ generator - 1 := X_dvd_iff.mpr (by simp [generator_terms])
  obtain ⟨others, whole⟩ := ends
  refine IsCoprime.pow_right ⟨1, -others, ?_⟩
  linear_combination whole

/-- A string is intact when the divisor divides its polynomial. -/
theorem isIntact_iff_dvd (bytes : Bytes) :
    IsIntact bytes ↔ generator ∣ ofBits (messageBits bytes) := by
  have left : ofWord (ofBytes bytes) = 0 ↔ IsIntact bytes := by
    rw [← ofWord_zero]
    exact ⟨ofWord_inj, congrArg ofWord⟩
  rw [← left, ofWord_ofBytes, modByMonic_eq_zero_iff_dvd monic_generator]
  exact ⟨(coprime_power degree).dvd_of_dvd_mul_right, fun divides => divides.mul_right _⟩

theorem messageBits_ofNat (width n : Nat) :
    messageBits (Bytes.ofNat width n) = bitsOf (8 * width) n := by
  induction width with
  | zero => rfl
  | succ width ih =>
    have byte : bitsOf 8 (UInt8.ofNat (n >>> (8 * width))).toNat = bitsOf 8 (n >>> (8 * width)) :=
      bitsOf_eq_iff.mpr fun i inside => by simp [Nat.testBit_mod_two_pow _ 8, inside]
    rw [Bytes.ofNat, messageBits_cons, ih, byte, Nat.mul_succ, Nat.add_comm, bitsOf_add]

/-- A message with a sum behind it is intact only if the sum is its own. -/
theorem isIntact_append_iff (message : Bytes) (sum : UInt32) :
    IsIntact (message ++ .ofWord32 sum) ↔ sum = ofBytes message := by
  have joined : ofBits (messageBits (message ++ .ofWord32 sum)) =
      ofBits (messageBits message) * X ^ degree + ofWord sum := by
    rw [messageBits_append, Bytes.ofWord32, messageBits_ofNat, ofBits_append, length_bitsOf]
    rfl
  have same : residue (ofWord sum) = residue (ofBits (messageBits message) * X ^ degree) ↔
      ofWord sum = ofWord (ofBytes message) := by
    rw [ofWord_ofBytes]
    exact (eq_modByMonic_iff (length_bitsOf ..).le).symm
  rw [isIntact_iff_dvd, joined, add_comm, ← CharTwo.sub_eq_add, ← residue_eq_iff, same]
  exact ⟨ofWord_inj, congrArg ofWord⟩

/-- The divisor does not divide what a burst adds. -/
theorem IsBurst.not_dvd {size : Nat} {places : List Nat} (burst : IsBurst size places) :
    ¬ generator ∣ (places.map fun place => (X : (ZMod 2)[X]) ^ (8 * size - 1 - place)).sum := by
  obtain ⟨start, near⟩ := burst.near
  have inside := burst.inside
  generalize stops : min (start + 32) (8 * size) = stop
  -- Behind the window only zeros are added, so the powers share that many factors.
  have factored : (places.map fun place => (X : (ZMod 2)[X]) ^ (8 * size - 1 - place)).sum =
      X ^ (8 * size - stop) * (places.map fun place => X ^ (stop - 1 - place)).sum := by
    rw [← List.sum_map_mul_left]
    refine congrArg List.sum (List.map_congr_left fun place member => ?_)
    have windowed := near place member
    have counted := inside place member
    rw [← pow_add]
    congr 1
    omega
  have short : (places.map fun place => (X : (ZMod 2)[X]) ^ (stop - 1 - place)).sum.degree <
      generator.degree := by
    rw [degree_generator, ← mem_degreeLT]
    refine list_sum_mem fun power listed => ?_
    obtain ⟨place, member, rfl⟩ := List.mem_map.mp listed
    have windowed := near place member
    rw [mem_degreeLT, degree_X_pow, Nat.cast_lt, degree]
    omega
  -- One of the places is enough to see that something is added: no other has its power.
  obtain ⟨place, member⟩ := List.exists_mem_of_ne_nil places burst.some
  have coefficient : (places.map fun place => (X : (ZMod 2)[X]) ^ (stop - 1 - place)).sum.coeff
      (stop - 1 - place) = 1 := by
    rw [← List.sum_toFinset _ burst.distinct, finsetSum_coeff, Finset.sum_eq_single place]
    · simp
    · intro other listed apart
      have one := near place member
      have counted := inside place member
      have two := near other (List.mem_toFinset.mp listed)
      have also := inside other (List.mem_toFinset.mp listed)
      rw [coeff_X_pow, if_neg (by omega)]
    · exact fun missing => absurd (List.mem_toFinset.mpr member) missing
  have added : (places.map fun place => (X : (ZMod 2)[X]) ^ (stop - 1 - place)).sum ≠ 0 := by
    intro zero
    rw [zero, coeff_zero] at coefficient
    exact zero_ne_one coefficient
  rw [factored]
  intro divides
  exact monic_generator.not_dvd_of_degree_lt added short
    ((coprime_power _).dvd_of_dvd_mul_left divides)

/-- A burst takes no intact string to another. -/
theorem IsBurst.shows {sent : Bytes} {places : List Nat} (burst : IsBurst sent.length places)
    (intact : IsIntact sent) : ¬ IsIntact (flipBits places sent) := by
  rw [isIntact_iff_dvd, ofBits_flipBits burst.inside,
    dvd_add_right ((isIntact_iff_dvd sent).mp intact)]
  exact burst.not_dvd

/-- Whatever the message and however long: it is intact with a sum behind it only if the sum is its
own, and then no burst within 32 neighbouring bits, be they in the message, in the sum or in both,
goes unseen. So it is for the body of a packet, which a reader then does not accept, for the header
of a packet that is long enough to have a sum in it, and for the header of a frame. -/
theorem sums_detect_bursts :
    (∀ (message : Bytes) (sum : UInt32),
      IsIntact (message ++ .ofWord32 sum) ↔ sum = ofBytes message) ∧
    (∀ (message : Bytes) (places : List Nat), IsBurst (message.length + 4) places →
      ¬ IsIntact (flipBits places (message ++ .ofWord32 (ofBytes message)))) ∧
    (∀ (packet : Packet) (places : List Nat), IsBurst (packet.payload.length + 4) places →
      ¬ IsIntact (flipBits places (packet.payload ++ packet.trailer)) ∧
      ∀ rest : Bytes, Packet.read?
        (packet.header ++ (flipBits places (packet.payload ++ packet.trailer) ++ rest)) = none) ∧
    (∀ (packet : Packet) (places : List Nat),
      Packet.shortDistance < Packet.distance packet.payload.length →
      IsBurst packet.header.length places → ¬ IsIntact (flipBits places packet.header)) ∧
    ∀ (stream : StreamHeader) (code : FrameCode) (pts size : Nat) (places : List Nat),
      IsBurst (FrameRecord.header stream code pts size).length places →
      ¬ IsIntact (flipBits places (FrameRecord.header stream code pts size)) := by
  have summed (message : Bytes) (places : List Nat) (burst : IsBurst (message.length + 4) places) :
      ¬ IsIntact (flipBits places (message ++ .ofWord32 (ofBytes message))) := by
    apply IsBurst.shows _ (isIntact_append_sum message)
    simpa [Bytes.ofWord32] using burst
  refine ⟨isIntact_append_iff, summed, ?_, ?_, ?_⟩
  · intro packet places burst
    have damaged : ¬ IsIntact (flipBits places (packet.payload ++ packet.trailer)) :=
      summed packet.payload places burst
    refine ⟨damaged, fun rest => ?_⟩
    rw [Packet.read?_header_append packet, if_neg damaged]
    rw [length_flipBits, packet.length_body]
  · intro packet places long burst
    have intact : IsIntact packet.header := by
      rw [Packet.header, if_pos long]
      exact isIntact_append_sum packet.lead
    exact burst.shows intact
  · intro stream code pts size places burst
    exact burst.shows (isIntact_append_sum _)

/-- Four bits, two of them in the message and two in its sum. -/
theorem sums_detect_bursts_sample :
    IsBurst 7 [22, 23, 25, 53] ∧
      ¬ IsIntact (flipBits [22, 23, 25, 53] ([0x4E, 0x55, 0x54] ++ Bytes.ofWord32
        (ofBytes [0x4E, 0x55, 0x54]))) ∧
      ¬ IsIntact ([0x4E, 0x55, 0x54] ++ Bytes.ofWord32 0) := by
  have burst : IsBurst 7 [22, 23, 25, 53] := ⟨by decide, by decide, ⟨22, by decide⟩, by decide⟩
  have other : (0 : UInt32) ≠ ofBytes [0x4E, 0x55, 0x54] := by decide +kernel
  obtain ⟨only, summed, _⟩ := sums_detect_bursts
  exact ⟨burst, summed [0x4E, 0x55, 0x54] _ burst, mt (only [0x4E, 0x55, 0x54] 0).mp other⟩

end NutContainer.Checksum
