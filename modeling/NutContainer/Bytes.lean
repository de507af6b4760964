/-!
Byte strings in file order, and the fixed-width numbers inside them. A number
takes a known count of bytes, most significant first, so its place in a file
shows its size without a length in front.

A reader takes a byte string and yields a value with the bytes behind it, or
nothing when the bytes do not begin with such a value.
-/
namespace NutContainer

/-- A run of bytes in the order in which a file holds them. -/
abbrev Bytes := List UInt8

namespace Bytes

/-- The low `width` bytes of `n`, most significant first. Higher bytes of `n`
are dropped. -/
def ofNat : (width : Nat) → (n : Nat) → Bytes
  | 0, _ => []
  | width + 1, n => UInt8.ofNat (n >>> (8 * width)) :: ofNat width n

/-- The number that a byte string spells, most significant byte first. -/
def toNat (bytes : Bytes) : Nat :=
  bytes.foldl (fun value byte => value * 256 + byte.toNat) 0

/-- Four bytes for a 32-bit word. -/
def ofWord32 (word : UInt32) : Bytes := ofNat 4 word.toNat

/-- Eight bytes for a 64-bit word. -/
def ofWord64 (word : UInt64) : Bytes := ofNat 8 word.toNat

/-- Splits off the first bytes, if there are that many. -/
def take? (count : Nat) (bytes : Bytes) : Option (Bytes × Bytes) :=
  if count ≤ bytes.length then some (bytes.take count, bytes.drop count) else none

/-- Reads a 32-bit word and says what follows it. -/
def word32? (bytes : Bytes) : Option (UInt32 × Bytes) :=
  (take? 4 bytes).map fun (front, rest) => (UInt32.ofNat front.toNat, rest)

/-- Reads a 64-bit word and says what follows it. -/
def word64? (bytes : Bytes) : Option (UInt64 × Bytes) :=
  (take? 8 bytes).map fun (front, rest) => (UInt64.ofNat front.toNat, rest)

/-- Reads a known count of items one after the other. -/
def many? (read? : Bytes → Option (α × Bytes)) : (count : Nat) → Bytes → Option (List α × Bytes)
  | 0, bytes => some ([], bytes)
  | count + 1, bytes => do
    let (first, bytes) ← read? bytes
    let (others, bytes) ← many? read? count bytes
    return (first :: others, bytes)

@[simp] theorem length_ofNat (width n : Nat) : (ofNat width n).length = width := by
  induction width with
  | zero => rfl
  | succ width ih => simp [ofNat, ih]

private theorem foldl_value (value : Nat) (bytes : Bytes) :
    bytes.foldl (fun value byte => value * 256 + byte.toNat) value =
      (value <<< (8 * bytes.length)) + toNat bytes := by
  induction bytes generalizing value with
  | nil => simp [toNat]
  | cons byte rest ih =>
    have shifted : value * 256 = value <<< 8 := by simp [Nat.shiftLeft_eq]
    simp only [toNat, List.foldl_cons, List.length_cons] at *
    rw [ih, ih (0 * 256 + byte.toNat), shifted, Nat.zero_mul, Nat.zero_add]
    simp only [Nat.shiftLeft_eq, Nat.mul_add, Nat.pow_add, Nat.add_mul]
    rw [Nat.mul_assoc, Nat.mul_comm (2 ^ 8), Nat.add_assoc]

theorem toNat_cons (byte : UInt8) (rest : Bytes) :
    toNat (byte :: rest) = (byte.toNat <<< (8 * rest.length)) + toNat rest := by
  simpa [toNat] using foldl_value byte.toNat rest

/-- Reading back what was written gives the number, reduced to the width. -/
theorem toNat_ofNat (width n : Nat) : toNat (ofNat width n) = n % (1 <<< (8 * width)) := by
  induction width with
  | zero => simp [ofNat, toNat, Nat.mod_one]
  | succ width ih =>
    rw [ofNat, toNat_cons, ih, length_ofNat, Nat.mul_succ, Nat.one_shiftLeft, Nat.one_shiftLeft,
      Nat.pow_add, Nat.mod_mul, Nat.shiftLeft_eq, UInt8.toNat_ofNat', Nat.shiftRight_eq_div_pow,
      Nat.mul_comm, Nat.add_comm]

/-- A front of the right length is split off, whatever follows it. -/
theorem take?_append {front : Bytes} {count : Nat} (width : front.length = count) (rest : Bytes) :
    take? count (front ++ rest) = some (front, rest) := by
  subst width
  simp [take?]

@[simp] theorem word32?_append (word : UInt32) (rest : Bytes) :
    word32? (ofWord32 word ++ rest) = some (word, rest) := by
  simp [word32?, ofWord32, take?_append (length_ofNat 4 word.toNat), toNat_ofNat]

@[simp] theorem word64?_append (word : UInt64) (rest : Bytes) :
    word64? (ofWord64 word ++ rest) = some (word, rest) := by
  simp [word64?, ofWord64, take?_append (length_ofNat 8 word.toNat), toNat_ofNat]

/-- If every item is read as what it means with anything behind it, so is a list of
them. -/
theorem many?_map {read? : Bytes → Option (β × Bytes)} {encode : α → Bytes} {meaning : α → β}
    {items : List α}
    (reads : ∀ item ∈ items, ∀ rest, read? (encode item ++ rest) = some (meaning item, rest))
    (rest : Bytes) :
    many? read? items.length (items.flatMap encode ++ rest) = some (items.map meaning, rest) := by
  induction items with
  | nil => rfl
  | cons first others ih =>
    have head := reads first (by simp)
    have tail := ih fun item member => reads item (by simp [member])
    simp [many?, head, tail]

/-- If every item can be read back with anything behind it, so can a list of
them. -/
theorem many?_append {read? : Bytes → Option (α × Bytes)} {encode : α → Bytes} {items : List α}
    (reads : ∀ item ∈ items, ∀ rest, read? (encode item ++ rest) = some (item, rest))
    (rest : Bytes) :
    many? read? items.length (items.flatMap encode ++ rest) = some (items, rest) := by
  have read := many?_map reads rest
  rwa [List.map_id'] at read

end Bytes

end NutContainer
