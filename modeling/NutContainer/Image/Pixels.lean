import NutContainer.Image

/-!
Pictures seen pixel by pixel. Where a pixel stands follows from the stride and
the layout; padding between rows and bytes behind the last row belong to no pixel.
Every place inside the picture has a pixel, because a picture has bytes for all
of its rows.
-/
namespace NutContainer.Image

/-- Where the pixel in column `x` of row `y` begins. -/
def pixelOffset (image : Image) (x y : Nat) : Nat :=
  y * image.stride + x * image.format.bytesPerPixel

/-- The bytes of the pixel in column `x` of row `y`. -/
def pixelBytes (image : Image) (x y : Nat) : Bytes :=
  (image.data.extract (image.pixelOffset x y)
    (image.pixelOffset x y + image.format.bytesPerPixel)).toList

/-- The place lies inside the picture. -/
def Contains (image : Image) (x y : Nat) : Prop := x < image.width.toNat ∧ y < image.height.toNat

instance (image : Image) (x y : Nat) : Decidable (image.Contains x y) :=
  inferInstanceAs (Decidable (_ ∧ _))

/-- The pixel in column `x` of row `y`, if the place lies inside the picture. -/
def pixel? (image : Image) (x y : Nat) : Option Pixel :=
  if image.Contains x y then (image.format.pixels (image.pixelBytes x y)).head? else none

/-- A picture in the target layout, pixel after pixel in reading order. -/
def raster (target : PixelFormat) (image : Image) : Bytes :=
  (List.range image.height.toNat).flatMap fun y =>
    (List.range image.width.toNat).flatMap fun x => (image.pixel? x y).elim [] target.encode

/-- A pixel ends before the picture's bytes do. -/
theorem pixelOffset_add_le {image : Image} {x y : Nat} (inside : image.Contains x y) :
    image.pixelOffset x y + image.format.bytesPerPixel ≤ image.data.size := by
  have column : (x + 1) * image.format.bytesPerPixel ≤
      image.width.toNat * image.format.bytesPerPixel := Nat.mul_le_mul_right _ inside.1
  have row : y * image.stride ≤ image.stride * (image.height.toNat - 1) := by
    rw [Nat.mul_comm]
    exact Nat.mul_le_mul_left _ (Nat.le_sub_one_of_lt inside.2)
  have covered := image.covered
  simp only [requiredSize, rowSize] at covered
  rw [Nat.add_mul, Nat.one_mul] at column
  unfold pixelOffset
  omega

theorem length_pixelBytes {image : Image} {x y : Nat} (inside : image.Contains x y) :
    (image.pixelBytes x y).length = image.format.bytesPerPixel := by
  have ends := pixelOffset_add_le inside
  simp only [pixelBytes, Array.length_toList, Array.size_extract]
  omega

end NutContainer.Image
