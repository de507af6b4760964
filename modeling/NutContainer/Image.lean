import NutContainer.Fault
import NutContainer.PixelFormat

/-!
Uncompressed pictures. A picture is a block of bytes in which rows begin at
equal distances; a row may be followed by padding, which the last row can do
without. A value of the type always has an area and bytes for all of its rows,
since only `Image.strided` makes one and it refuses anything else, or crashes
where no word holds the bytes that it asks for.
-/
namespace NutContainer

/-- How many bytes the pixels of a row take. -/
def rowSize (width : UInt32) (format : PixelFormat) : Nat := width.toNat * format.bytesPerPixel

/-- How many bytes a picture needs: full strides, and a last row without
padding. -/
def requiredSize (width height : UInt32) (format : PixelFormat) (stride : Nat) : Nat :=
  stride * (height.toNat - 1) + rowSize width format

/-- A picture whose rows all lie inside its bytes. -/
structure Image where
  width : UInt32
  height : UInt32
  format : PixelFormat
  /-- The distance in bytes between the beginnings of two rows. -/
  stride : Nat
  data : Array UInt8
  hasArea : width ≠ 0 ∧ height ≠ 0
  rowsApart : rowSize width format ≤ stride
  covered : requiredSize width height format stride ≤ data.size

namespace Image

/-- A picture with rows at the given distance. -/
def strided (width height : UInt32) (format : PixelFormat) (stride : Nat) (data : Array UInt8) :
    Except Failure Image :=
  if area : width ≠ 0 ∧ height ≠ 0 then
    if apart : rowSize width format ≤ stride then
      if covers : requiredSize width height format stride ≤ data.size then
        .ok ⟨width, height, format, stride, data, area, apart, covers⟩
      else do
        -- A word counts the bytes that are there, so a number beyond all words ends up here.
        let required ← Failure.inWord (requiredSize width height format stride)
        .error (.refused (.invalidArgument (.imageData required data.size)))
    else .error (.refused (.invalidArgument (.stride stride (rowSize width format))))
  else .error (.refused (.invalidArgument (.imageSize width.toNat height.toNat)))

/-- A picture without padding. -/
def tight (width height : UInt32) (format : PixelFormat) (data : Array UInt8) :
    Except Failure Image :=
  strided width height format (rowSize width format) data

/-- The pixels' bytes of row `y`, if they lie inside the picture's bytes. Bytes
beyond the last row may hold further rows. -/
def row? (image : Image) (y : Nat) : Option Bytes :=
  let start := y * image.stride
  let stop := start + rowSize image.width image.format
  if stop ≤ image.data.size then some (image.data.extract start stop).toList else none

end Image

end NutContainer
