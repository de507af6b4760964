import NutContainer.Varint

/-!
The fields that packets and records are made of. A payload is described as a
list of fields and spelled out in one place, so the layout of a header can be
read off its field list.

A timestamp field joins a count of ticks and the number of its clock into one
integer. The join has an inverse as long as the clock number is below the count
of clocks and the joined value stays within 64 bits; `codedTime?` is the test
for the latter.
-/
namespace NutContainer

/-- One item of a payload. -/
inductive Field where
  | byte (value : UInt8)
  | word32 (value : UInt32)
  | word64 (value : UInt64)
  /-- Bytes with nothing added. -/
  | raw (bytes : Bytes)
  /-- A number of variable length. -/
  | unsigned (value : Nat)
  /-- A signed number of variable length. -/
  | signed (value : Int)
  /-- Bytes with their length in front. -/
  | block (bytes : Bytes)
  /-- A time on one of several clocks. -/
  | time (ticks clock clocks : Nat)
  deriving DecidableEq, Repr

/-- Ticks and clock in one 64-bit number, if they fit. -/
def codedTime? (ticks clock clocks : Nat) : Option Nat :=
  let coded := ticks * clocks + clock
  if coded < UInt64.size then some coded else none

namespace Field

/-- The bytes of a field. A joined time above 64 bits loses its upper part;
callers test with `codedTime?` first. -/
def encode : Field → Bytes
  | byte value => [value]
  | word32 value => .ofWord32 value
  | word64 value => .ofWord64 value
  | raw bytes => bytes
  | unsigned value => Varint.encode value
  | signed value => Varint.encodeSigned value
  | block bytes => Varint.encodeBlock bytes
  | time ticks clock clocks => Varint.encode ((ticks * clocks + clock) % UInt64.size)

/-- The bytes of a payload. -/
def encodeAll (fields : List Field) : Bytes := fields.flatMap encode

@[simp] theorem encodeAll_nil : encodeAll [] = [] := rfl

@[simp] theorem encodeAll_cons (field : Field) (fields : List Field) :
    encodeAll (field :: fields) = field.encode ++ encodeAll fields := rfl

theorem encodeAll_append (front back : List Field) :
    encodeAll (front ++ back) = encodeAll front ++ encodeAll back := by
  simp [encodeAll]

theorem encodeAll_flatMap (items : List α) (fields : α → List Field) :
    encodeAll (items.flatMap fields) = items.flatMap fun item => encodeAll (fields item) := by
  simp [encodeAll, List.flatMap_assoc]

end Field

end NutContainer
