import Mathlib.Algebra.Ring.Nat
import Mathlib.Data.Nat.Bitwise
import NutContainer.Varint.Words

/-! How numbers of variable length are spelled. For numbers that fit a 64-bit word the groups that
are divided off and the groups that shifts and masks bring out are the same ones, as many as the
shifts are counted, and never more than ten, so that no shift is by a whole word. They are as few as
can hold the number, so the first of them is not empty. A reader comes back to the number and stops
behind it, in a word as well as without bounds, and so no spelling is the beginning of another one.
What a word reads is what is read without bounds, less the bits above a word, whatever the bytes. -/
namespace NutContainer.Varint

theorem size_pos (n : Nat) : 0 < size n := by
  rw [size]
  split <;> omega

/-- The size is the least count of groups that have room for the number. -/
theorem size_le_iff {n groups : Nat} (pos : 0 < groups) : size n ≤ groups ↔ n < 128 ^ groups := by
  induction groups generalizing n with
  | zero => exact absurd pos (Nat.lt_irrefl 0)
  | succ groups ih =>
    have room : 0 < 128 ^ groups := Nat.pow_pos (by decide)
    rw [size, Nat.pow_succ]
    split
    · omega
    · rw [Nat.add_le_add_iff_right, ← Nat.div_lt_iff_lt_mul (by decide)]
      rcases Nat.eq_zero_or_pos groups with rfl | more
      · have held := size_pos (n / 128)
        omega
      · exact ih more

theorem leading_head {n : Nat} (pos : n ≠ 0) :
    ∃ first rest, leading n = first :: rest ∧ 128 < first.toNat := by
  induction n using Nat.strongRecOn with
  | ind n ih =>
    rw [leading_of_pos pos]
    by_cases single : n / 128 = 0
    · refine ⟨_, _, by rw [single, leading, if_pos rfl]; rfl, ?_⟩
      rw [UInt8.toNat_ofNat']
      omega
    · obtain ⟨first, rest, split, marked⟩ := ih (n / 128) (by omega) single
      exact ⟨first, _, by rw [split]; rfl, marked⟩

/-- No spelling begins with a group that is empty and continued. -/
theorem head?_encode_ne (n : Nat) : (encode n).head? ≠ some 0x80 := by
  intro empty
  rw [encode] at empty
  by_cases single : n / 128 = 0
  · rw [single, leading, if_pos rfl] at empty
    have value : (UInt8.ofNat (n % 128)).toNat = 128 :=
      congrArg UInt8.toNat (Option.some.inj empty)
    rw [UInt8.toNat_ofNat'] at value
    omega
  · obtain ⟨first, rest, split, marked⟩ := leading_head single
    rw [split] at empty
    have value : first.toNat = 128 := congrArg UInt8.toNat (Option.some.inj empty)
    omega

/-- Only a number itself is spelled by the beginning of its spelling. -/
theorem eq_of_encode_isPrefix {m n : Nat} (begins : encode m <+: encode n) : m = n := by
  obtain ⟨rest, same⟩ := begins
  have front := read?_append m rest
  have whole := read?_append n []
  rw [List.append_nil, ← same, front] at whole
  exact congrArg Prod.fst (Option.some.inj whole)

/-- As many shifts are counted as there are groups left. -/
theorem countGroups_eq (count : Nat) (rest : UInt64) :
    countGroups count rest = count + (leading rest.toNat).length := by
  induction count, rest using countGroups.induct with
  | case1 count =>
    rw [countGroups, if_pos rfl, UInt64.toNat_zero, leading, if_pos rfl]
    rfl
  | case2 count rest more ih =>
    have left : rest.toNat ≠ 0 := fun none => more (UInt64.toNat_inj.mp none)
    rw [countGroups, if_neg more, ih, toNat_shiftRight_group, leading_of_pos left,
      List.length_append, List.length_singleton]
    omega

theorem wordSize_eq (word : UInt64) : wordSize word = size word.toNat := by
  rw [wordSize, countGroups_eq, toNat_shiftRight_group, ← length_encode, encode,
    List.length_append, List.length_singleton, Nat.add_comm]

/-- A word has at most ten groups. -/
theorem wordSize_le (word : UInt64) : wordSize word ≤ 10 := by
  rw [wordSize_eq, size_le_iff (by decide)]
  exact Nat.lt_trans word.toNat_lt (by decide)

theorem toNat_lastGroup (word : UInt64) : ((word &&& 0x7F).toUInt8).toNat = word.toNat % 128 := by
  rw [UInt64.toNat_toUInt8, UInt64.toNat_and]
  change (word.toNat &&& 2 ^ 7 - 1) % 2 ^ 8 = _
  rw [Nat.and_two_pow_sub_one_eq_mod]
  omega

/-- The groups of a word by division. No shift reaches the width of a word. -/
theorem continuedGroup_eq (word : UInt64) {below : Nat} (within : below < 10) :
    continuedGroup word below = UInt8.ofNat (128 + word.toNat / 128 ^ below % 128) := by
  have amount : (UInt64.ofNat (7 * below)).toNat % 64 = 7 * below := by
    rw [UInt64.toNat_ofNat']
    omega
  have group : (((word >>> UInt64.ofNat (7 * below)) &&& 0x7F).toUInt8).toNat =
      word.toNat / 128 ^ below % 128 := by
    rw [toNat_lastGroup, UInt64.toNat_shiftRight, amount, Nat.shiftRight_eq_div_pow, Nat.pow_mul]
  have small : word.toNat / 128 ^ below % 128 < 2 ^ 7 := Nat.mod_lt _ (by decide)
  apply UInt8.toNat_inj.mp
  rw [continuedGroup, UInt8.toNat_or, group, UInt8.toNat_ofNat']
  change 2 ^ 7 * 1 ||| _ = _
  rw [← Nat.two_pow_add_eq_or_of_lt small]
  omega

/-- The groups above a place, one by one, are those that division leaves there. -/
theorem map_groups (n below : Nat) :
    (List.range' below (leading (n / 128 ^ below)).length).reverse.map
        (fun below => UInt8.ofNat (128 + n / 128 ^ below % 128)) = leading (n / 128 ^ below) := by
  generalize above : n / 128 ^ below = rest
  -- The groups are counted from below but stand highest first, so it is the last one that goes.
  induction rest using Nat.strongRecOn generalizing below with
  | ind rest ih =>
    by_cases none : rest = 0
    · rw [none, leading, if_pos rfl]
      rfl
    · have next : n / 128 ^ (below + 1) = rest / 128 := by
        rw [Nat.pow_succ, ← Nat.div_div_eq_div_mul, above]
      have others := ih (rest / 128) (by omega) (below + 1) next
      rw [leading_of_pos none, List.length_append, List.length_singleton, List.range'_succ,
        List.reverse_cons, List.map_append, others, List.map_singleton, above]

/-- Shifts and masks spell a word as division does. -/
theorem encodeWord_eq (word : UInt64) : encodeWord word = encode word.toNat := by
  have count : wordSize word - 1 = (leading (word.toNat / 128)).length := by
    rw [wordSize, countGroups_eq, toNat_shiftRight_group]
    exact Nat.add_sub_cancel_left ..
  have groups : (List.range' 1 (wordSize word - 1)).reverse.map (continuedGroup word) =
      leading (word.toNat / 128) := by
    have divided := map_groups word.toNat 1
    rw [Nat.pow_one, ← count] at divided
    rw [← divided]
    refine List.map_congr_left fun below member => continuedGroup_eq word ?_
    have few := wordSize_le word
    rw [List.mem_reverse, List.mem_range'_1] at member
    omega
  have last : (word &&& 0x7F).toUInt8 = UInt8.ofNat (word.toNat % 128) := by
    apply UInt8.toNat_inj.mp
    rw [toNat_lastGroup, UInt8.toNat_ofNat']
    omega
  rw [encodeWord, groups, last, encode]

/-- A byte that is not continued is below 128. -/
theorem and_mark_eq_zero (byte : UInt8) : byte &&& 0x80 = 0 ↔ byte.toNat < 128 := by
  have bit : (byte &&& 0x80).toNat = (byte.toNat.testBit 7).toNat * 2 ^ 7 := by
    rw [UInt8.toNat_and]
    exact Nat.and_two_pow byte.toNat 7
  have bound := byte.toNat_lt
  rw [← UInt8.toNat_inj, bit, Nat.testBit_eq_decide_div_mod_eq]
  cases high : decide (byte.toNat / 2 ^ 7 % 2 = 1) with
  | false =>
    have clear := of_decide_eq_false high
    exact iff_of_true rfl (by omega)
  | true =>
    have set := of_decide_eq_true high
    exact iff_of_false (by decide) (by omega)

/-- A word takes in a group as a number does, less the bits above a word. -/
theorem takeGroup_eq (value : Nat) (byte : UInt8) :
    UInt64.ofNat value <<< 7 ||| (byte &&& 0x7F).toUInt64 =
      UInt64.ofNat (value * 128 + byte.toNat % 128) := by
  have group : (byte &&& 0x7F).toNat = byte.toNat % 128 := by
    rw [UInt8.toNat_and]
    exact Nat.and_two_pow_sub_one_eq_mod byte.toNat 7
  have shifted : (UInt64.ofNat value <<< 7).toNat = 2 ^ 7 * (value % 2 ^ 57) := by
    rw [UInt64.toNat_shiftLeft, UInt64.toNat_ofNat']
    change (value % 2 ^ 64) <<< 7 % 2 ^ 64 = _
    rw [Nat.shiftLeft_eq]
    omega
  have small : byte.toNat % 128 < 2 ^ 7 := Nat.mod_lt _ (by decide)
  apply UInt64.toNat_inj.mp
  rw [UInt64.toNat_or, UInt8.toNat_toUInt64, group, shifted, ← Nat.two_pow_add_eq_or_of_lt small,
    UInt64.toNat_ofNat']
  omega

/-- From any bytes a word reads the number, less the bits above a word. -/
theorem readWordFrom_eq (value : Nat) (bytes : Bytes) :
    readWordFrom (UInt64.ofNat value) bytes =
      (readFrom value bytes).map fun (n, rest) => (UInt64.ofNat n, rest) := by
  induction bytes generalizing value with
  | nil => rfl
  | cons byte rest ih =>
    rw [readWordFrom, readFrom, takeGroup_eq]
    dsimp only
    by_cases last : byte.toNat < 128
    · rw [if_pos ((and_mark_eq_zero byte).mpr last), if_pos last, Nat.mod_eq_of_lt last]
      rfl
    · rw [if_neg (fun unmarked => last ((and_mark_eq_zero byte).mp unmarked)), if_neg last, ih]

theorem readWord?_append (word : UInt64) (rest : Bytes) :
    readWord? (encode word.toNat ++ rest) = some (word, rest) := by
  have read := readWordFrom_eq 0 (encode word.toNat ++ rest)
  rw [← read?, read?_append] at read
  simpa [readWord?] using read

/-- The magnitude of any word but the least has a place that fits. -/
theorem toNat_rankWord {x : Int64} (inner : x ≠ .minValue) :
    (rankWord x).toNat = rank x.toInt ∧ rank x.toInt < 2 ^ 64 - 1 := by
  have low := x.le_toInt
  have high := x.toInt_lt
  have least : x.toInt ≠ -2 ^ 63 := fun same =>
    inner (Int64.toInt_inj.mp (same.trans Int64.toInt_minValue.symm))
  have double : (UInt64.ofNat x.toInt.natAbs * 2).toNat = 2 * x.toInt.natAbs := by
    rw [UInt64.toNat_mul, UInt64.toNat_ofNat']
    change x.toInt.natAbs % 2 ^ 64 * 2 % 2 ^ 64 = _
    omega
  have sign : 0 < x ↔ 0 < x.toInt := Int64.lt_iff_toInt_lt
  rw [rankWord, rank]
  by_cases positive : 0 < x.toInt
  · rw [if_pos (sign.mpr positive), if_pos positive, UInt64.toNat_sub, double]
    change (2 ^ 64 - 1 + 2 * x.toInt.natAbs) % 2 ^ 64 = _ ∧ _
    omega
  · rw [if_neg (fun above => positive (sign.mp above)), if_neg positive, double]
    omega

theorem toInt_toInt64 {word : UInt64} (half : word.toNat < 2 ^ 63) :
    word.toInt64.toInt = word.toNat :=
  BitVec.toInt_eq_toNat_of_lt (by change 2 * word.toNat < 2 ^ 64; omega)

/-- Below the last place a word finds the number that stands there. -/
theorem toInt_unrankWord {word : UInt64} (inner : word.toNat < 2 ^ 64 - 1) :
    (unrankWord word).toInt = unrank word.toNat := by
  have half : (word / 2).toNat = word.toNat / 2 := UInt64.toNat_div word 2
  have bit : (word % 2).toNat = word.toNat % 2 := UInt64.toNat_mod word 2
  have parity : word &&& 1 = 1 ↔ word.toNat % 2 = 1 := by
    rw [← UInt64.toNat_inj, UInt64.toNat_and]
    exact iff_of_eq (congrArg (· = 1) (Nat.and_one_is_mod word.toNat))
  have up : (word / 2 + word % 2).toNat = word.toNat / 2 + word.toNat % 2 := by
    rw [UInt64.toNat_add, half, bit]
    omega
  rw [unrankWord, unrank]
  by_cases odd : word.toNat % 2 = 1
  · rw [if_pos (parity.mpr odd), if_pos odd, toInt_toInt64 (by omega), up, Int.ofNat_eq_natCast]
    omega
  · rw [if_neg (fun set => odd (parity.mp set)), if_neg odd, Int64.toInt_neg,
      toInt_toInt64 (by omega), half, Int.ofNat_eq_natCast]
    exact Int.bmod_eq_of_le_mul_two (by omega) (by omega)

theorem unrankWord_rankWord {x : Int64} (inner : x ≠ .minValue) : unrankWord (rankWord x) = x := by
  obtain ⟨place, below⟩ := toNat_rankWord inner
  apply Int64.toInt_inj.mp
  rw [toInt_unrankWord (place ▸ below), place, unrank_rank]

theorem readSignedWord?_append {x : Int64} (inner : x ≠ .minValue) (rest : Bytes) :
    readSignedWord? (encodeSigned x.toInt ++ rest) = some (x, rest) := by
  have read := readWord?_append (rankWord x) rest
  rw [(toNat_rankWord inner).1] at read
  simp [readSignedWord?, encodeSigned, read, unrankWord_rankWord inner]

/-- Every 64-bit word is spelled in from one to ten bytes, as few as have room for it, and by shifts
just as by division. The first byte is never an empty group. Both readers come back to the word and
stop behind it, whatever follows, so that no spelling begins another one. Every signed word but the
least is read back as well, and every byte string whose length fits a word. -/
theorem spelled_words_are_read_back :
    (∀ (word : UInt64) (rest : Bytes),
      encodeWord word = encode word.toNat ∧
      (encode word.toNat).length = wordSize word ∧
      1 ≤ wordSize word ∧ wordSize word ≤ 10 ∧
      (∀ groups, 0 < groups → (wordSize word ≤ groups ↔ word.toNat < 128 ^ groups)) ∧
      (encode word.toNat).head? ≠ some 0x80 ∧
      read? (encode word.toNat ++ rest) = some (word.toNat, rest) ∧
      readWord? (encode word.toNat ++ rest) = some (word, rest) ∧
      ∀ other : UInt64, encode word.toNat <+: encode other.toNat → word = other) ∧
    (∀ (x : Int64) (rest : Bytes), x ≠ .minValue →
      encodeSigned x.toInt = encodeWord (rankWord x) ∧
      readSigned? (encodeSigned x.toInt ++ rest) = some (x.toInt, rest) ∧
      readSignedWord? (encodeSigned x.toInt ++ rest) = some (x, rest)) ∧
    ∀ block rest : Bytes, block.length < 2 ^ 64 →
      encodeBlock block = encodeWord (.ofNat block.length) ++ block ∧
      readBlock? (encodeBlock block ++ rest) = some (block, rest) := by
  refine ⟨fun word rest => ⟨encodeWord_eq word, ?_, ?_, wordSize_le word, fun groups pos => ?_,
      head?_encode_ne _, read?_append _ rest, readWord?_append word rest,
      fun other begins => UInt64.toNat_inj.mp (eq_of_encode_isPrefix begins)⟩,
    fun x rest inner => ⟨?_, readSigned?_append _ rest, readSignedWord?_append inner rest⟩,
    fun block rest fits => ⟨?_, readBlock?_append block rest⟩⟩
  · rw [wordSize_eq, length_encode]
  · rw [wordSize_eq]
    exact size_pos _
  · rw [wordSize_eq, size_le_iff pos]
  · rw [encodeWord_eq, (toNat_rankWord inner).1, encodeSigned]
  · rw [encodeWord_eq, UInt64.toNat_ofNat', Nat.mod_eq_of_lt fits, encodeBlock]

/-- The least number of two bytes, the greatest word, and the least signed word but one. -/
theorem spelled_words_are_read_back_sample :
    encodeWord 128 = [0x81, 0x00] ∧ readWord? [0x81, 0x00, 0xFF] = some (128, [0xFF]) ∧
      wordSize 0xFFFFFFFFFFFFFFFF = 10 ∧
      readSignedWord? (encodeSigned (-9223372036854775807) ++ [7]) =
        some (-9223372036854775807, [7]) ∧
      readBlock? (encodeBlock [0x4E, 0x80] ++ [1]) = some ([0x4E, 0x80], [1]) := by
  obtain ⟨words, signed, blocks⟩ := spelled_words_are_read_back
  obtain ⟨spelled, _, _, _, _, _, _, read, _⟩ := words 128 [0xFF]
  obtain ⟨_, _, _, most, room, _⟩ := words 0xFFFFFFFFFFFFFFFF []
  have ten : ¬ wordSize 0xFFFFFFFFFFFFFFFF ≤ 9 := by
    rw [room 9 (by decide)]
    decide
  have two : encode (128 : UInt64).toNat = [0x81, 0x00] := by
    simp [encode, leading]
  rw [two] at spelled read
  exact ⟨spelled, read, by omega, (signed (-9223372036854775807) [7] (by decide)).2.2,
    (blocks [0x4E, 0x80] [1] (by decide)).2⟩

end NutContainer.Varint
