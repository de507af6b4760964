import Mathlib.Algebra.Ring.Nat
import NutContainer.Proofs.PackedPictures

/-! Which rows a picture answers for. Its own rows are always there, each from its place on and as
long as its pixels, because no picture is made without bytes for all of them. But a row is looked
for among the bytes and not among the rows, and a picture may be made from more bytes than it
needs. So the rows end where the picture does exactly if there are not enough bytes for one more. -/
namespace NutContainer.Image

variable {width height : UInt32} {format : PixelFormat} {stride : Nat} {data : Array UInt8}
  {image : Image} {y : Nat}

/-- A picture is made from these bytes, with rows at this distance. Without padding the distance is
the size of a row. -/
def MadeFrom (width height : UInt32) (format : PixelFormat) (stride : Nat) (data : Array UInt8)
    (image : Image) : Prop :=
  strided width height format stride data = .ok image ∨
    stride = rowSize width format ∧ tight width height format data = .ok image

theorem MadeFrom.strided (made : MadeFrom width height format stride data image) :
    strided width height format stride data = .ok image := by
  rcases made with made | ⟨rfl, made⟩
  · exact made
  · exact made

/-- A row is there exactly if it ends before the bytes do. -/
theorem row?_eq_some {row : Bytes} : image.row? y = some row ↔
    y * image.stride + rowSize image.width image.format ≤ image.data.size ∧
      (image.data.toList.drop (y * image.stride)).take (rowSize image.width image.format) = row := by
  rw [row?, Option.ite_none_right_eq_some, Option.some.injEq, Array.toList_extract,
    List.extract_eq_take_drop, Nat.add_sub_cancel_left]

theorem exists_row? : (∃ row, image.row? y = some row) ↔
    y * image.stride + rowSize image.width image.format ≤ image.data.size := by
  simp only [row?_eq_some, exists_and_left, exists_eq', and_true]

/-- The picture's own rows end before the bytes do. -/
theorem rowEnd_le (inside : y < image.height.toNat) :
    y * image.stride + rowSize image.width image.format ≤ image.data.size := by
  have above : y * image.stride ≤ image.stride * (image.height.toNat - 1) := by
    rw [Nat.mul_comm]
    exact Nat.mul_le_mul_left _ (Nat.le_sub_one_of_lt inside)
  have covered := image.covered
  rw [requiredSize] at covered
  omega

/-- If the bytes do not reach for one row more than the picture has, they do not for later ones. -/
theorem size_lt_rowEnd (short : image.data.size <
      image.height.toNat * image.stride + rowSize image.width image.format)
    (outside : image.height.toNat ≤ y) :
    image.data.size < y * image.stride + rowSize image.width image.format := by
  have below : image.height.toNat * image.stride ≤ y * image.stride :=
    Nat.mul_le_mul_right _ outside
  omega

/-- Each row of a picture is there, with the bytes that its pixels take from its place on. What is
behind the last row is taken for a further row wherever it is long enough, and for no row where it
is not. There are no rows but the picture's own exactly if the bytes are too few for one more. -/
theorem rows_reach_as_far_as_bytes (made : MadeFrom width height format stride data image) :
    (∀ y, y < height.toNat → ∃ row, image.row? y = some row ∧
      row = (data.toList.drop (y * stride)).take (width.toNat * format.bytesPerPixel) ∧
      row.length = width.toNat * format.bytesPerPixel) ∧
    (∀ y, height.toNat ≤ y →
      ((∃ row, image.row? y = some row) ↔
        y * stride + width.toNat * format.bytesPerPixel ≤ data.size) ∧
      ∀ row, image.row? y = some row →
        row = (data.toList.drop (y * stride)).take (width.toNat * format.bytesPerPixel)) ∧
    ((∀ y, (∃ row, image.row? y = some row) ↔ y < height.toNat) ↔
      data.size < height.toNat * stride + width.toNat * format.bytesPerPixel) := by
  obtain ⟨rfl, rfl, rfl, rfl, rfl⟩ := strided_ok_iff.mp made.strided
  refine ⟨fun y inside => ?_, fun y _ => ?_, ⟨fun ends => ?_, fun short y => ?_⟩⟩
  · have covered := rowEnd_le inside
    refine ⟨_, row?_eq_some.mpr ⟨covered, rfl⟩, rfl, ?_⟩
    change _ = rowSize image.width image.format
    rw [List.length_take, List.length_drop, Array.length_toList]
    omega
  · exact ⟨exists_row?, fun row found => (row?_eq_some.mp found).2.symm⟩
  · by_contra long
    exact Nat.lt_irrefl _ ((ends _).mp (exists_row?.mpr (Nat.le_of_not_lt long)))
  · rw [exists_row?]
    constructor
    · intro reaches
      by_contra outside
      exact Nat.not_le_of_lt (size_lt_rowEnd short (Nat.le_of_not_lt outside)) reaches
    · exact rowEnd_le

/-- Two rows of three bytes with a byte of padding, which the last row does without. -/
theorem rows_reach_as_far_as_bytes_sample :
    ∃ image, MadeFrom 3 2 .gray8 4 #[1, 2, 3, 99, 4, 5, 6] image ∧
      image.row? 1 = some [4, 5, 6] ∧ ∀ y, (∃ row, image.row? y = some row) ↔ y < 2 := by
  obtain ⟨image, made⟩ : ∃ image, MadeFrom 3 2 .gray8 4 #[1, 2, 3, 99, 4, 5, 6] image :=
    ⟨_, .inl rfl⟩
  obtain ⟨own, _, ends⟩ := rows_reach_as_far_as_bytes made
  obtain ⟨row, found, rfl, _⟩ := own 1 (by decide)
  exact ⟨image, made, found, ends.mpr (by decide)⟩

/-- A byte behind a picture of a single byte is taken for a second row, though the picture has one
row only. -/
theorem row_behind_last_row :
    ∃ image, tight 1 1 .gray8 #[7, 9] = .ok image ∧
      image.stride * image.height.toNat < 2 ^ 64 ∧
      image.row? 1 = some [9] ∧ ¬ 1 < image.height.toNat :=
  ⟨_, rfl, by decide, rfl, by decide⟩

end NutContainer.Image
