import NutContainer.FourCC

/-!
Packed pixel layouts and the pixels inside them. A layout says in which order
the components of a pixel stand; a pixel itself has no order. Turning a picture
from one layout into another is reading pixels in the first and writing them in
the second.

Grey is weighed from red, green and blue in 256ths. The weights add up to 256,
so a pixel that is grey already keeps its value. Layouts without transparency
read as opaque.
-/
namespace NutContainer

/-- The order of components in a pixel of uncompressed video. -/
inductive PixelFormat where
  | rgb24
  | bgr24
  | rgba
  | bgra
  | argb
  | abgr
  | gray8
  deriving DecidableEq, Repr

/-- A colour with its opacity. -/
structure Pixel where
  red : UInt8
  green : UInt8
  blue : UInt8
  alpha : UInt8
  deriving DecidableEq, Repr

namespace Pixel

/-- A pixel that hides what is behind it. -/
def opaqueColour (red green blue : UInt8) : Pixel := ⟨red, green, blue, 255⟩

/-- Brightness, rounded to the nearest step. -/
def luma (pixel : Pixel) : UInt8 :=
  UInt8.ofNat
    (min ((77 * pixel.red.toNat + 150 * pixel.green.toNat + 29 * pixel.blue.toNat + 128) / 256) 255)

end Pixel

namespace PixelFormat

def bytesPerPixel : PixelFormat → Nat
  | gray8 => 1
  | rgb24 | bgr24 => 3
  | rgba | bgra | argb | abgr => 4

def hasAlpha : PixelFormat → Bool
  | rgba | bgra | argb | abgr => true
  | rgb24 | bgr24 | gray8 => false

/-- The name of a layout in messages and settings. -/
def name : PixelFormat → String
  | rgb24 => "rgb24"
  | bgr24 => "bgr24"
  | rgba => "rgba"
  | bgra => "bgra"
  | argb => "argb"
  | abgr => "abgr"
  | gray8 => "gray8"

/-- The name of a layout where settings are shown to programmers. -/
def label : PixelFormat → String
  | rgb24 => "Rgb24"
  | bgr24 => "Bgr24"
  | rgba => "Rgba"
  | bgra => "Bgra"
  | argb => "Argb"
  | abgr => "Abgr"
  | gray8 => "Gray8"

/-- The layout that a name stands for. -/
def ofName? (name : String) : Option PixelFormat :=
  [rgb24, bgr24, rgba, bgra, argb, abgr, gray8].find? (·.name == name)

/-- The tag of a layout in a stream header. The two 24-bit layouts and the grey
one end in their depth. -/
def fourcc : PixelFormat → FourCC
  | rgb24 => ⟨0x52, 0x47, 0x42, 24⟩
  | bgr24 => ⟨0x42, 0x47, 0x52, 24⟩
  | rgba => ⟨0x52, 0x47, 0x42, 0x41⟩
  | bgra => ⟨0x42, 0x47, 0x52, 0x41⟩
  | argb => ⟨0x41, 0x52, 0x47, 0x42⟩
  | abgr => ⟨0x41, 0x42, 0x47, 0x52⟩
  | gray8 => ⟨0x59, 0x31, 0, 8⟩

/-- The pixels of a row. Bytes that do not fill a last pixel are left out. -/
def pixels : PixelFormat → Bytes → List Pixel
  | gray8, y :: rest => .opaqueColour y y y :: pixels gray8 rest
  | rgb24, r :: g :: b :: rest => .opaqueColour r g b :: pixels rgb24 rest
  | bgr24, b :: g :: r :: rest => .opaqueColour r g b :: pixels bgr24 rest
  | rgba, r :: g :: b :: a :: rest => ⟨r, g, b, a⟩ :: pixels rgba rest
  | bgra, b :: g :: r :: a :: rest => ⟨r, g, b, a⟩ :: pixels bgra rest
  | argb, a :: r :: g :: b :: rest => ⟨r, g, b, a⟩ :: pixels argb rest
  | abgr, a :: b :: g :: r :: rest => ⟨r, g, b, a⟩ :: pixels abgr rest
  | _, _ => []

/-- One pixel in a layout. -/
def encode (format : PixelFormat) (pixel : Pixel) : Bytes :=
  match format with
  | gray8 => [pixel.luma]
  | rgb24 => [pixel.red, pixel.green, pixel.blue]
  | bgr24 => [pixel.blue, pixel.green, pixel.red]
  | rgba => [pixel.red, pixel.green, pixel.blue, pixel.alpha]
  | bgra => [pixel.blue, pixel.green, pixel.red, pixel.alpha]
  | argb => [pixel.alpha, pixel.red, pixel.green, pixel.blue]
  | abgr => [pixel.alpha, pixel.blue, pixel.green, pixel.red]

@[simp] theorem length_encode (format : PixelFormat) (pixel : Pixel) :
    (format.encode pixel).length = format.bytesPerPixel := by
  cases format <;> rfl

end PixelFormat

end NutContainer
