import NutContainer.Bytes

/-!
Four-byte tags that name a coding inside a stream header. Most spell a word;
some end in a number, such as the depth of a pixel.
-/
namespace NutContainer

/-- A tag of exactly four bytes. -/
structure FourCC where
  first : UInt8
  second : UInt8
  third : UInt8
  fourth : UInt8
  deriving DecidableEq, Repr

namespace FourCC

/-- The tag as it stands in a file. -/
def toBytes (tag : FourCC) : Bytes := [tag.first, tag.second, tag.third, tag.fourth]

/-- A byte string is a tag exactly when it has four bytes. -/
def ofBytes? : Bytes → Option FourCC
  | [first, second, third, fourth] => some ⟨first, second, third, fourth⟩
  | _ => none

/-- Uncompressed sound: 32-bit signed samples, most significant byte first. -/
def pcm : FourCC := ⟨32, 0x44, 0x53, 0x50⟩

@[simp] theorem length_toBytes (tag : FourCC) : tag.toBytes.length = 4 := rfl

@[simp] theorem ofBytes?_toBytes (tag : FourCC) : ofBytes? tag.toBytes = some tag := rfl

end FourCC

end NutContainer
