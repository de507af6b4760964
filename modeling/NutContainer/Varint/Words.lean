import NutContainer.Varint

/-!
Variable-length integers as 64-bit words have them, with shifts and masks. A word is
shifted down by a group at a time until nothing is left of it, which counts its
groups; then each group is shifted to the end of the word and cut off there, highest
group first. A reader shifts up what it has and puts the next group below, and bits
that are shifted out of the word are lost.
-/
namespace NutContainer.Varint

/-- A shift by one group leaves the groups above the last one. -/
theorem toNat_shiftRight_group (word : UInt64) : (word >>> 7).toNat = word.toNat / 128 := by
  rw [UInt64.toNat_shiftRight, Nat.shiftRight_eq_div_pow]
  rfl

/-- Counts the shifts until nothing is left of `rest`, with `count` groups before. -/
def countGroups (count : Nat) (rest : UInt64) : Nat :=
  if rest = 0 then count else countGroups (count + 1) (rest >>> 7)
termination_by rest.toNat
decreasing_by
  rename_i more
  have left : rest.toNat ≠ 0 := fun none => more (UInt64.toNat_inj.mp none)
  rw [toNat_shiftRight_group]
  omega

/-- How many groups a word has. Zero has one as well. -/
def wordSize (word : UInt64) : Nat := countGroups 1 (word >>> 7)

/-- The group of a word with so many groups below it, marked as continued. -/
def continuedGroup (word : UInt64) (below : Nat) : UInt8 :=
  0x80 ||| ((word >>> UInt64.ofNat (7 * below)) &&& 0x7F).toUInt8

/-- The groups of a word, highest first. -/
def encodeWord (word : UInt64) : Bytes :=
  (List.range' 1 (wordSize word - 1)).reverse.map (continuedGroup word)
    ++ [(word &&& 0x7F).toUInt8]

/-- Reads groups into a word until one is not continued, with `word` read before. -/
def readWordFrom (word : UInt64) : Bytes → Option (UInt64 × Bytes)
  | [] => none
  | byte :: rest =>
    let word := word <<< 7 ||| (byte &&& 0x7F).toUInt64
    if byte &&& 0x80 = 0 then some (word, rest) else readWordFrom word rest

/-- Reads one word and says what follows it. -/
def readWord? (bytes : Bytes) : Option (UInt64 × Bytes) := readWordFrom 0 bytes

/-- The place of a signed word among `0, 1, -1, 2, -2, …`. -/
def rankWord (x : Int64) : UInt64 :=
  let size := UInt64.ofNat x.toInt.natAbs
  if 0 < x then size * 2 - 1 else size * 2

/-- The signed word at a place. -/
def unrankWord (word : UInt64) : Int64 :=
  if word &&& 1 = 1 then (word / 2 + word % 2).toInt64 else -(word / 2).toInt64

/-- Reads one signed word and says what follows it. -/
def readSignedWord? (bytes : Bytes) : Option (Int64 × Bytes) :=
  (readWord? bytes).map fun (word, rest) => (unrankWord word, rest)

end NutContainer.Varint
