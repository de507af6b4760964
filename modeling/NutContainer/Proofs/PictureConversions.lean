import NutContainer.Proofs.PackedPictures

/-! Pictures that change their layout twice. The picture in between has no padding and says nothing
of how it came about, so all that matters is what its layout keeps of each pixel. That gives a rule
for when the detour makes no difference, and the rule is exact: wherever it does not hold, there is
a picture of one pixel that shows it. -/
namespace NutContainer

namespace Image

/-- The bytes of the pixels in reading order, without padding and without what is behind. -/
def pixelData (image : Image) : Bytes :=
  (List.range image.height.toNat).flatMap fun y =>
    (List.range image.width.toNat).flatMap fun x => image.pixelBytes x y

/-- In its own layout a picture is its own bytes. -/
theorem raster_self (image : Image) : image.raster image.format = image.pixelData := by
  rw [raster_eq]
  refine List.flatMap_congr fun y row => List.flatMap_congr fun x column => ?_
  exact (pixel?_eq ⟨List.mem_range.mp column, List.mem_range.mp row⟩).2.1

/-- Bytes that are enough for all pixels make a picture. -/
theorem tight_ok {width height : UInt32} {format : PixelFormat} {data : Array UInt8}
    (area : width ≠ 0 ∧ height ≠ 0)
    (size : data.size = width.toNat * height.toNat * format.bytesPerPixel) :
    ∃ image, tight width height format data = .ok image := by
  have some : 1 ≤ height.toNat := Nat.pos_of_ne_zero fun none =>
    area.2 (UInt32.toNat_inj.mp none)
  have rows : rowSize width format * (height.toNat - 1) + rowSize width format =
      rowSize width format * height.toNat := by
    rw [← Nat.mul_succ, Nat.succ_eq_add_one, Nat.sub_add_cancel some]
  have required : requiredSize width height format (rowSize width format) = data.size := by
    rw [requiredSize, rows, rowSize, size, Nat.mul_right_comm]
  exact ⟨_, by rw [tight, strided, dif_pos area, dif_pos (Nat.le_refl _),
    dif_pos (Nat.le_of_eq required)]⟩

/-- A picture that is made from the bytes of another one in some layout has what the layout keeps
of each pixel. -/
theorem tight_raster (middle : PixelFormat) (image : Image) :
    ∃ between, tight image.width image.height middle (image.raster middle).toArray = .ok between ∧
      between.width = image.width ∧ between.height = image.height ∧
      ∀ x y, image.Contains x y → between.pixelAt x y = middle.kept (image.pixelAt x y) := by
  have size : (image.raster middle).toArray.size =
      image.width.toNat * image.height.toNat * middle.bytesPerPixel := by
    rw [List.size_toArray, length_raster]
  obtain ⟨between, made⟩ := tight_ok image.hasArea size
  obtain ⟨wide, high, format, stride, data⟩ := strided_ok_iff.mp made
  refine ⟨between, made, wide, high, fun x y inside => ?_⟩
  have place : between.Contains x y := by rwa [Contains, wide, high]
  have offset : between.pixelOffset x y = (y * image.width.toNat + x) * middle.bytesPerPixel := by
    rw [pixelOffset, stride, format, rowSize, Nat.add_mul, Nat.mul_assoc]
  have bytes : between.pixelBytes x y = between.format.encode (image.pixelAt x y) := by
    rw [pixelBytes, data, format, offset, Array.toList_extract, List.extract_eq_take_drop,
      Nat.add_sub_cancel_left]
    exact slice_raster middle inside
  rw [pixelAt_of_bytes place bytes, format]

end Image

namespace ImageFormat

/-- A picture is coded in one layout, the outcome is taken for a picture of the same size, and this
is coded in another layout. -/
def packedVia (middle target : PixelFormat) (image : Image) : Except Failure Bytes := do
  let bytes ← Failure.ofRefusal ((packed middle).encode image)
  let between ← Image.tight image.width image.height middle bytes.toArray
  Failure.ofRefusal ((packed target).encode between)

/-- The detour never fails; every pixel comes through as the layout in between has kept it. -/
theorem packedVia_eq (middle target : PixelFormat) (image : Image) :
    packedVia middle target image = .ok ((List.range image.height.toNat).flatMap fun y =>
      (List.range image.width.toNat).flatMap fun x =>
        target.encode (middle.kept (image.pixelAt x y))) := by
  obtain ⟨between, made, wide, high, keeps⟩ := image.tight_raster middle
  have coded : (packed middle).encode image = .ok (image.raster middle) :=
    packedBytes_eq middle image
  have recoded : (packed target).encode between = .ok (between.raster target) :=
    packedBytes_eq target between
  have shown : between.raster target = (List.range image.height.toNat).flatMap fun y =>
      (List.range image.width.toNat).flatMap fun x =>
        target.encode (middle.kept (image.pixelAt x y)) := by
    rw [Image.raster_eq, wide, high]
    refine List.flatMap_congr fun y row => List.flatMap_congr fun x column => ?_
    rw [keeps x y ⟨List.mem_range.mp column, List.mem_range.mp row⟩]
  rw [packedVia, coded]
  change (Image.tight image.width image.height middle (image.raster middle).toArray >>= _) = _
  rw [made, ← shown]
  exact Failure.ofRefusal_eq_ok.mpr recoded

/-- By way of a layout that conveys it, a picture arrives as it would have directly. -/
theorem packedVia_of_conveys {middle target : PixelFormat} {image : Image}
    (conveys : image.format.Conveys middle target) :
    packedVia middle target image = .ok (image.raster target) := by
  rw [packedVia_eq, Image.raster_eq]
  congr 1
  refine List.flatMap_congr fun y row => List.flatMap_congr fun x column => ?_
  have inside : image.Contains x y := ⟨List.mem_range.mp column, List.mem_range.mp row⟩
  exact conveys.encode_kept (Image.pixel?_eq inside).2.2

/-- There is a picture of a single pixel that shows what a layout keeps of it. -/
theorem exists_single (format : PixelFormat) (pixel : Pixel) :
    ∃ image : Image, image.format = format ∧ image.width = 1 ∧ image.height = 1 ∧
      image.pixelAt 0 0 = format.kept pixel := by
  have size : (format.encode pixel).toArray.size =
      (1 : UInt32).toNat * (1 : UInt32).toNat * format.bytesPerPixel := by
    rw [List.size_toArray, PixelFormat.length_encode]
    exact (Nat.one_mul _).symm
  obtain ⟨image, made⟩ := Image.tight_ok (by decide) size
  obtain ⟨wide, high, rfl, _, data⟩ := Image.strided_ok_iff.mp made
  have inside : image.Contains 0 0 := by
    rw [Image.Contains, wide, high]
    decide
  have bytes : image.pixelBytes 0 0 = image.format.encode pixel := by
    rw [Image.pixelBytes, Image.pixelOffset, data, Array.toList_extract,
      List.extract_eq_take_drop]
    simp [List.take_of_length_le]
  exact ⟨image, rfl, wide, high, Image.pixelAt_of_bytes inside bytes⟩

/-- A detour makes no difference to any picture of the source layout exactly if the layout in
between is the target, or if it has colours or there are none, and it has opacity or there is none
or none is asked for. A picture that goes from one layout with opacity to another and back is
unharmed, and so is a grey one that goes anywhere and back. -/
theorem packed_twice_as_packed_once (source middle target : PixelFormat) :
    ((∀ image : Image, image.format = source → ∃ bytes,
        packedVia middle target image = .ok bytes ∧ (packed target).encode image = .ok bytes) ↔
      (middle = target ∨ (middle ≠ .gray8 ∨ source = .gray8) ∧
        (middle.hasAlpha ∨ ¬ source.hasAlpha ∨ ¬ target.hasAlpha))) ∧
    ∀ image : Image, (image.format.hasAlpha ∧ middle.hasAlpha ∨ image.format = .gray8) →
      packedVia middle image.format image = .ok image.pixelData := by
  refine ⟨⟨fun alike => ?_, ?_⟩, ?_⟩
  · obtain ⟨image, rfl, wide, high, shows⟩ := exists_single source PixelFormat.hiddenRed
    obtain ⟨bytes, twice, once⟩ := alike image rfl
    cases once.symm.trans (packedBytes_eq target image)
    rw [packedVia_eq, Image.raster_eq, wide, high] at twice
    have one : List.range (1 : UInt32).toNat = [0] := rfl
    simp only [one, List.flatMap_singleton, shows, Except.ok.injEq] at twice
    exact PixelFormat.conveys_of_hiddenRed twice
  · rintro conveys image rfl
    exact ⟨_, packedVia_of_conveys conveys, packedBytes_eq target image⟩
  · intro image lossless
    have conveys : image.format.Conveys middle image.format := by
      rcases lossless with ⟨_, alpha⟩ | grey
      · have colours : middle ≠ .gray8 := by
          rintro rfl
          cases alpha
        exact .inr ⟨.inl colours, .inl alpha⟩
      · have plain : ¬ image.format.hasAlpha := by
          rw [grey]
          decide
        exact .inr ⟨.inr grey, .inr (.inl plain)⟩
    rw [packedVia_of_conveys conveys, image.raster_self]

theorem packed_twice_as_packed_once_sample :
    ∃ image bytes, Image.strided 2 2 .rgba 11 paddedData = .ok image ∧
      packedVia .bgra .gray8 image = .ok bytes ∧ (packed .gray8).encode image = .ok bytes ∧
      packedVia .abgr .rgba image = .ok image.pixelData ∧
      ¬ ∀ other : Image, other.format = .rgba → ∃ bytes,
        packedVia .bgr24 .argb other = .ok bytes ∧ (packed .argb).encode other = .ok bytes := by
  obtain ⟨image, made⟩ : ∃ image, Image.strided 2 2 .rgba 11 paddedData = .ok image := ⟨_, rfl⟩
  have layout : image.format = .rgba := (Image.strided_ok_iff.mp made).2.2.1
  obtain ⟨bytes, twice, once⟩ :=
    (packed_twice_as_packed_once .rgba .bgra .gray8).1.mpr (by decide) image layout
  have back := (packed_twice_as_packed_once .rgba .abgr .rgba).2 image
    (.inl ⟨by rw [layout]; rfl, rfl⟩)
  rw [layout] at back
  refine ⟨image, bytes, made, twice, once, back, fun alike => ?_⟩
  exact absurd ((packed_twice_as_packed_once .rgba .bgr24 .argb).1.mp alike) (by decide)

end ImageFormat

end NutContainer
