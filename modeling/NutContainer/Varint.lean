import NutContainer.Bytes

/-!
Variable-length integers. A number is cut into groups of seven bits, highest
group first; every byte but the last carries a set top bit. No encoding opens
with an empty group, so each number has one spelling and no spelling is the
beginning of another.

Signed numbers take turns: 0, 1, -1, 2, -2 and so on become 0, 1, 2, 3, 4.
-/
namespace NutContainer.Varint

/-- The groups above the last one, each marked as continued. -/
def leading (n : Nat) : Bytes :=
  if n = 0 then [] else leading (n / 128) ++ [UInt8.ofNat (128 + n % 128)]

/-- The one spelling of `n`. -/
def encode (n : Nat) : Bytes := leading (n / 128) ++ [UInt8.ofNat (n % 128)]

/-- How many bytes `encode n` takes: the fewest groups that hold `n`. -/
def size (n : Nat) : Nat := if n < 128 then 1 else size (n / 128) + 1

/-- Reads groups until one is not continued, with `value` read before. -/
def readFrom (value : Nat) : Bytes → Option (Nat × Bytes)
  | [] => none
  | byte :: rest =>
    if byte.toNat < 128 then some (value * 128 + byte.toNat, rest)
    else readFrom (value * 128 + byte.toNat % 128) rest

/-- Reads one number and says what follows it. -/
def read? (bytes : Bytes) : Option (Nat × Bytes) := readFrom 0 bytes

/-- The place of a signed number among `0, 1, -1, 2, -2, …`. -/
def rank (x : Int) : Nat := if 0 < x then 2 * x.natAbs - 1 else 2 * x.natAbs

/-- The signed number at a place. -/
def unrank (n : Nat) : Int := if n % 2 = 1 then Int.ofNat ((n + 1) / 2) else -Int.ofNat (n / 2)

/-- The spelling of a signed number. -/
def encodeSigned (x : Int) : Bytes := encode (rank x)

/-- Reads one signed number and says what follows it. -/
def readSigned? (bytes : Bytes) : Option (Int × Bytes) :=
  (read? bytes).map fun (n, rest) => (unrank n, rest)

/-- A byte string with its length in front. -/
def encodeBlock (block : Bytes) : Bytes := encode block.length ++ block

/-- Reads a byte string with its length in front. -/
def readBlock? (bytes : Bytes) : Option (Bytes × Bytes) := do
  let (length, rest) ← read? bytes
  Bytes.take? length rest

/-- Reads a number that is to fit 32 bits. -/
def readWord32? (bytes : Bytes) : Option (UInt32 × Bytes) := do
  let (n, rest) ← read? bytes
  if n < UInt32.size then some (UInt32.ofNat n, rest) else none

theorem leading_of_pos {n : Nat} (pos : n ≠ 0) :
    leading n = leading (n / 128) ++ [UInt8.ofNat (128 + n % 128)] := by
  rw [leading, if_neg pos]

theorem readFrom_leading (n : Nat) (rest : Bytes) :
    readFrom 0 (leading n ++ rest) = readFrom n rest := by
  induction n using Nat.strongRecOn generalizing rest with
  | ind n ih =>
    by_cases zero : n = 0
    · simp [zero, leading]
    · have smaller : n / 128 < n := by omega
      have marked : (UInt8.ofNat (128 + n % 128)).toNat = 128 + n % 128 := by
        rw [UInt8.toNat_ofNat']
        omega
      have continued : ¬ 128 + n % 128 < 128 := by omega
      have group : n / 128 * 128 + (128 + n % 128) % 128 = n := by omega
      rw [leading_of_pos zero, List.append_assoc, ih _ smaller, List.singleton_append, readFrom,
        marked, if_neg continued, group]

/-- What was written is read back, whatever follows. -/
theorem read?_append (n : Nat) (rest : Bytes) : read? (encode n ++ rest) = some (n, rest) := by
  have last : n % 128 < 128 := Nat.mod_lt _ (by decide)
  have small : n % 128 % 256 = n % 128 := by omega
  have whole : n / 128 * 128 + n % 128 = n := by omega
  simp [read?, encode, readFrom_leading, readFrom, UInt8.toNat_ofNat', small, last, whole]

theorem length_leading (n : Nat) : (leading n).length = if n = 0 then 0 else size n := by
  induction n using Nat.strongRecOn with
  | ind n ih =>
    by_cases zero : n = 0
    · simp [zero, leading]
    · have smaller : n / 128 < n := by omega
      rw [leading_of_pos zero, if_neg zero, size]
      by_cases single : n < 128
      · simp [single, Nat.div_eq_of_lt single, leading]
      · have more : n / 128 ≠ 0 := by omega
        simp [ih _ smaller, single, more]

theorem length_encode (n : Nat) : (encode n).length = size n := by
  rw [encode, List.length_append, length_leading, List.length_singleton]
  conv => rhs; rw [size]
  by_cases single : n < 128
  · simp [single, Nat.div_eq_of_lt single]
  · have more : n / 128 ≠ 0 := by omega
    simp [single, more]

theorem unrank_rank (x : Int) : unrank (rank x) = x := by
  simp only [unrank, rank, Int.ofNat_eq_natCast]
  split <;> split <;> omega

theorem readSigned?_append (x : Int) (rest : Bytes) :
    readSigned? (encodeSigned x ++ rest) = some (x, rest) := by
  simp [readSigned?, encodeSigned, read?_append, unrank_rank]

theorem readBlock?_append (block rest : Bytes) :
    readBlock? (encodeBlock block ++ rest) = some (block, rest) := by
  simp [readBlock?, encodeBlock, read?_append, Bytes.take?_append]

theorem readWord32?_append (word : UInt32) (rest : Bytes) :
    readWord32? (encode word.toNat ++ rest) = some (word, rest) := by
  simp [readWord32?, read?_append, word.toNat_lt]

end NutContainer.Varint
