import NutContainer.Image.Format
import NutContainer.Image.Pixels
import NutContainer.Proofs.PixelLayouts
import NutContainer.Proofs.Success

/-! A packed picture is its pixels, one after the other and nothing else. The coding goes row by
row, and takes a row as it is if the layout is right already; the statement here goes pixel by
pixel, so it makes no difference which of the two ways a row has gone. Where the pixels stand in
the picture that is coded depends on the stride, where they stand in the outcome does not. -/
namespace NutContainer

/-- Where blocks of one size stand behind each other, a piece of one block is found by counting. -/
theorem slice_flatMap {items : List α} {block : α → List β} {size : Nat}
    (uniform : ∀ item ∈ items, (block item).length = size) {place : Nat} {item : α}
    (found : items[place]? = some item) {start count : Nat} (inside : start + count ≤ size) :
    ((items.flatMap block).drop (place * size + start)).take count =
      ((block item).drop start).take count := by
  induction items generalizing place with
  | nil => cases found
  | cons first others ih =>
    have width : (block first).length = size := uniform first (by simp)
    rw [List.flatMap_cons]
    cases place with
    | zero =>
      cases found
      rw [Nat.zero_mul, Nat.zero_add, List.drop_append_of_le_length (by omega),
        List.take_append_of_le_length (by rw [List.length_drop]; omega)]
    | succ place =>
      have behind : (place + 1) * size + start = (block first).length + (place * size + start) := by
        rw [width, Nat.succ_mul]
        omega
      rw [behind, ← List.drop_drop, List.drop_left]
      exact ih (fun item member => uniform item (by simp [member])) found

theorem block_flatMap {items : List α} {block : α → List β} {size : Nat}
    (uniform : ∀ item ∈ items, (block item).length = size) {place : Nat} {item : α}
    (found : items[place]? = some item) :
    ((items.flatMap block).drop (place * size)).take size = block item := by
  have width : (block item).length = size := uniform item (List.mem_of_getElem? found)
  have piece := slice_flatMap uniform found (show 0 + size ≤ size by omega)
  rwa [Nat.add_zero, List.drop_zero, List.take_of_length_le (Nat.le_of_eq width)] at piece

theorem length_flatMap_uniform {items : List α} {block : α → List β} {size : Nat}
    (uniform : ∀ item ∈ items, (block item).length = size) :
    (items.flatMap block).length = items.length * size := by
  rw [List.length_flatMap, List.map_congr_left uniform, List.map_const', List.sum_replicate_nat]

/-- A stretch of a list is cut into blocks of one size. -/
theorem take_drop_blocks (items : List α) (start size count : Nat) :
    (items.drop start).take (count * size) =
      (List.range count).flatMap fun place => (items.drop (start + place * size)).take size := by
  induction count with
  | zero => simp
  | succ count ih =>
    rw [Nat.succ_mul, List.take_add, ih, List.drop_drop, List.range_succ, List.flatMap_append,
      List.flatMap_singleton]

namespace ImageFormat

/-- The pixels of a row that is given pixel by pixel. -/
theorem pixels_flatMap {source : PixelFormat} {places : List α} {pixel : α → Pixel}
    (own : ∀ place ∈ places, source.kept (pixel place) = pixel place) :
    source.pixels (places.flatMap fun place => source.encode (pixel place)) = places.map pixel := by
  induction places with
  | nil => cases source <;> rfl
  | cons place places ih =>
    rw [List.flatMap_cons, PixelFormat.pixels_encode_append, own place (by simp), List.map_cons,
      ih fun place member => own place (by simp [member])]

/-- A row goes over into another layout pixel by pixel, also where it is taken as it is. -/
theorem convertRow_flatMap {source : PixelFormat} (target : PixelFormat) {places : List α}
    {pixel : α → Pixel} (own : ∀ place ∈ places, source.kept (pixel place) = pixel place) :
    convertRow source target (places.flatMap fun place => source.encode (pixel place)) =
      places.flatMap fun place => target.encode (pixel place) := by
  unfold convertRow
  split
  · rename_i same
    rw [same]
  · rw [pixels_flatMap own, List.flatMap_map]

end ImageFormat

namespace Image

variable {image : Image} {x y : Nat}

/-- The pixel at a place inside the picture. -/
def pixelAt (image : Image) (x y : Nat) : Pixel :=
  (image.pixel? x y).getD (.opaqueColour 0 0 0)

/-- Where the bytes of a pixel stand, there is what the layout keeps of it. -/
theorem pixel?_of_bytes {pixel : Pixel} (inside : image.Contains x y)
    (bytes : image.pixelBytes x y = image.format.encode pixel) :
    image.pixel? x y = some (image.format.kept pixel) := by
  rw [pixel?, if_pos inside, bytes, PixelFormat.pixels_encode]
  rfl

theorem pixelAt_of_bytes {pixel : Pixel} (inside : image.Contains x y)
    (bytes : image.pixelBytes x y = image.format.encode pixel) :
    image.pixelAt x y = image.format.kept pixel := by
  rw [pixelAt, pixel?_of_bytes inside bytes, Option.getD_some]

/-- Inside a picture there is a pixel at every place: the one that the bytes there stand for. -/
theorem pixel?_eq (inside : image.Contains x y) :
    image.pixel? x y = some (image.pixelAt x y) ∧
      image.format.encode (image.pixelAt x y) = image.pixelBytes x y ∧
      image.format.kept (image.pixelAt x y) = image.pixelAt x y := by
  obtain ⟨pixel, encoded, own⟩ := PixelFormat.exists_encode (length_pixelBytes inside)
  have found := pixel?_of_bytes inside encoded.symm
  have same := pixelAt_of_bytes inside encoded.symm
  rw [own] at found same
  rw [same]
  exact ⟨found, encoded, own⟩

/-- A row is the bytes of its pixels, without the padding behind them. -/
theorem row?_eq (inside : y < image.height.toNat) :
    image.row? y = some ((List.range image.width.toNat).flatMap fun x =>
      image.format.encode (image.pixelAt x y)) := by
  have area : 0 < image.width.toNat := Nat.pos_of_ne_zero fun none =>
    image.hasArea.1 (UInt32.toNat_inj.mp none)
  have corner : image.Contains (image.width.toNat - 1) y := ⟨Nat.sub_one_lt_of_lt area, inside⟩
  have width : rowSize image.width image.format =
      (image.width.toNat - 1) * image.format.bytesPerPixel + image.format.bytesPerPixel := by
    rw [rowSize, ← Nat.succ_mul, Nat.succ_eq_add_one, Nat.sub_add_cancel area]
  have covered : y * image.stride + rowSize image.width image.format ≤ image.data.size := by
    rw [width, ← Nat.add_assoc]
    exact pixelOffset_add_le corner
  rw [row?, if_pos covered]
  congr 1
  rw [Array.toList_extract, List.extract_eq_take_drop, Nat.add_sub_cancel_left, rowSize,
    take_drop_blocks]
  refine List.flatMap_congr fun x member => ?_
  rw [(pixel?_eq ⟨List.mem_range.mp member, inside⟩).2.1, pixelBytes, pixelOffset,
    Array.toList_extract, List.extract_eq_take_drop, Nat.add_sub_cancel_left]

/-- What a picture is made from is what it holds, and every picture can be made so. -/
theorem strided_ok_iff {width height : UInt32} {format : PixelFormat} {stride : Nat}
    {data : Array UInt8} : strided width height format stride data = .ok image ↔
      image.width = width ∧ image.height = height ∧ image.format = format ∧
        image.stride = stride ∧ image.data = data := by
  constructor
  · intro made
    unfold strided at made
    split at made
    · split at made
      · split at made
        · cases made
          exact ⟨rfl, rfl, rfl, rfl, rfl⟩
        · obtain ⟨_, _, refused⟩ := except_bind_ok.mp made
          cases refused
      · cases made
    · cases made
  · rintro ⟨rfl, rfl, rfl, rfl, rfl⟩
    rw [strided, dif_pos image.hasArea, dif_pos image.rowsApart, dif_pos image.covered]

/-- With an area and with rows that are far enough apart, making a picture crashes exactly if the
bytes that it needs are more than there are and more than a word counts. -/
theorem strided_crash_iff {width height : UInt32} {format : PixelFormat} {stride : Nat}
    {data : Array UInt8} (area : width ≠ 0 ∧ height ≠ 0) (apart : rowSize width format ≤ stride) :
    strided width height format stride data = .error .crash ↔
      data.size < requiredSize width height format stride ∧
        UInt64.size ≤ requiredSize width height format stride := by
  rw [strided, dif_pos area, dif_pos apart]
  by_cases covers : requiredSize width height format stride ≤ data.size
  · rw [dif_pos covers]
    exact iff_of_false nofun fun short => Nat.not_lt.mpr covers short.1
  · rw [dif_neg covers, and_iff_right (Nat.lt_of_not_le covers)]
    by_cases fits : requiredSize width height format stride < UInt64.size
    · rw [Failure.inWord_of_lt fits]
      exact iff_of_false nofun (Nat.not_le.mpr fits)
    · rw [Failure.inWord_of_le (Nat.le_of_not_lt fits)]
      exact iff_of_true rfl (Nat.le_of_not_lt fits)

example : strided 1 2 .gray8 (2 ^ 64 - 1) #[1, 2, 3, 4, 5, 6, 7, 8, 9, 10] = .error .crash :=
  (strided_crash_iff (by decide) (by decide)).mpr (by decide)

/-- Pictures that show the same bytes at every place are the same pixel by pixel. -/
theorem raster_congr (target : PixelFormat) {one other : Image} (wide : one.width = other.width)
    (high : one.height = other.height) (format : one.format = other.format)
    (same : ∀ x y, one.Contains x y → one.pixelBytes x y = other.pixelBytes x y) :
    one.raster target = other.raster target := by
  rw [raster, raster, wide, high]
  refine List.flatMap_congr fun y row => List.flatMap_congr fun x column => ?_
  have place : other.Contains x y := ⟨List.mem_range.mp column, List.mem_range.mp row⟩
  have inside : one.Contains x y := by rwa [Contains, wide, high]
  rw [pixel?, pixel?, if_pos place, if_pos inside, format, same x y inside]

/-- Raster order, pixel by pixel. -/
theorem raster_eq (target : PixelFormat) (image : Image) :
    image.raster target = (List.range image.height.toNat).flatMap fun y =>
      (List.range image.width.toNat).flatMap fun x => target.encode (image.pixelAt x y) := by
  refine List.flatMap_congr fun y row => List.flatMap_congr fun x column => ?_
  rw [(pixel?_eq ⟨List.mem_range.mp column, List.mem_range.mp row⟩).1, Option.elim_some]

theorem length_rasterRow (target : PixelFormat) (image : Image) (y : Nat) :
    ((List.range image.width.toNat).flatMap fun x => target.encode (image.pixelAt x y)).length =
      image.width.toNat * target.bytesPerPixel := by
  rw [length_flatMap_uniform fun x _ => target.length_encode _, List.length_range]

theorem length_raster (target : PixelFormat) (image : Image) :
    (image.raster target).length =
      image.width.toNat * image.height.toNat * target.bytesPerPixel := by
  rw [raster_eq, length_flatMap_uniform fun y _ => length_rasterRow target image y,
    List.length_range, ← Nat.mul_assoc, Nat.mul_comm image.height.toNat]

/-- The pixel at a place of the picture is found at the place of the same number. -/
theorem slice_raster (target : PixelFormat) (inside : image.Contains x y) :
    ((image.raster target).drop ((y * image.width.toNat + x) * target.bytesPerPixel)).take
      target.bytesPerPixel = target.encode (image.pixelAt x y) := by
  have column : (x + 1) * target.bytesPerPixel ≤ image.width.toNat * target.bytesPerPixel :=
    Nat.mul_le_mul_right _ inside.1
  rw [Nat.succ_mul] at column
  have number : (y * image.width.toNat + x) * target.bytesPerPixel =
      y * (image.width.toNat * target.bytesPerPixel) + x * target.bytesPerPixel := by
    rw [Nat.add_mul, Nat.mul_assoc]
  rw [raster_eq, number, slice_flatMap (fun y _ => length_rasterRow target image y)
    (List.getElem?_range inside.2) column]
  exact block_flatMap (fun x _ => target.length_encode _) (List.getElem?_range inside.1)

end Image

namespace ImageFormat

/-- The coding never fails, and it yields the picture in raster order. -/
theorem packedBytes_eq (target : PixelFormat) (image : Image) :
    packedBytes target image = .ok (image.raster target) := by
  have rows : (List.range image.height.toNat).mapM (packedRow target image) =
      .ok ((List.range image.height.toNat).map fun y =>
        (List.range image.width.toNat).flatMap fun x => target.encode (image.pixelAt x y)) := by
    refine except_mapM_of_ok fun y member => ?_
    have inside := List.mem_range.mp member
    rw [packedRow, Image.row?_eq inside]
    dsimp only
    rw [convertRow_flatMap target fun x column =>
      (Image.pixel?_eq ⟨List.mem_range.mp column, inside⟩).2.2]
  rw [packedBytes, rows, Image.raster_eq, List.flatMap_def]
  rfl

/-- Whatever the size, the layouts, the stride and what stands in the padding: a picture that could
be made can be coded. The outcome has room for the pixels and for nothing else, and at the place of
a pixel's number it shows what the pixel's bytes mean, in the target layout; this is no different
where the layout stays the same and rows are taken as they are. What is not a pixel's has no
influence, so another picture with the same bytes for all of its pixels is coded alike. -/
theorem packed_picture_shows_every_pixel {width height : UInt32} {source : PixelFormat}
    {stride : Nat} {data : Array UInt8} {image : Image}
    (made : Image.strided width height source stride data = .ok image) (target : PixelFormat) :
    ∃ bytes, (packed target).encode image = .ok bytes ∧
      bytes.length = width.toNat * height.toNat * target.bytesPerPixel ∧
      (∀ x y, x < width.toNat → y < height.toNat → ∃ pixel,
        source.pixels (data.extract (y * stride + x * source.bytesPerPixel)
          (y * stride + x * source.bytesPerPixel + source.bytesPerPixel)).toList = [pixel] ∧
        (bytes.drop ((y * width.toNat + x) * target.bytesPerPixel)).take target.bytesPerPixel =
          target.encode pixel) ∧
      ∀ (otherStride : Nat) (otherData : Array UInt8) (other : Image),
        Image.strided width height source otherStride otherData = .ok other →
        (∀ x y, x < width.toNat → y < height.toNat →
          otherData.extract (y * otherStride + x * source.bytesPerPixel)
              (y * otherStride + x * source.bytesPerPixel + source.bytesPerPixel) =
            data.extract (y * stride + x * source.bytesPerPixel)
              (y * stride + x * source.bytesPerPixel + source.bytesPerPixel)) →
        (packed target).encode other = .ok bytes := by
  obtain ⟨rfl, rfl, rfl, rfl, rfl⟩ := Image.strided_ok_iff.mp made
  refine ⟨image.raster target, packedBytes_eq target image, image.length_raster target, ?_, ?_⟩
  · intro x y column row
    obtain ⟨_, encoded, own⟩ := Image.pixel?_eq ⟨column, row⟩
    refine ⟨image.pixelAt x y, ?_, Image.slice_raster target ⟨column, row⟩⟩
    change image.format.pixels (image.pixelBytes x y) = [image.pixelAt x y]
    rw [← encoded, PixelFormat.pixels_encode, own]
  · intro otherStride otherData other remade same
    obtain ⟨wide, high, format, rfl, rfl⟩ := Image.strided_ok_iff.mp remade
    have shown := Image.raster_congr target wide high format fun x y inside => by
      rw [Image.Contains, wide, high] at inside
      rw [Image.pixelBytes, Image.pixelBytes, Image.pixelOffset, Image.pixelOffset, format,
        same x y inside.1 inside.2]
    exact (packedBytes_eq target other).trans (congrArg _ shown)

/-- Two rows of two pixels, the last pixel half hidden; three bytes of padding and no more. -/
def paddedData : Array UInt8 :=
  #[1, 2, 3, 255, 4, 5, 6, 255, 99, 99, 99, 7, 8, 9, 255, 10, 11, 12, 128]

/-- The same pixels without padding, but with a byte behind them. -/
def trailedData : Array UInt8 :=
  #[1, 2, 3, 255, 4, 5, 6, 255, 7, 8, 9, 255, 10, 11, 12, 128, 77]

theorem packed_picture_shows_every_pixel_sample :
    ∃ padded trailed bytes, Image.strided 2 2 .rgba 11 paddedData = .ok padded ∧
      Image.tight 2 2 .rgba trailedData = .ok trailed ∧
      (packed .argb).encode padded = .ok bytes ∧ (packed .argb).encode trailed = .ok bytes ∧
      bytes.length = 16 ∧ (bytes.drop 12).take 4 = [128, 10, 11, 12] := by
  obtain ⟨padded, made⟩ : ∃ padded, Image.strided 2 2 .rgba 11 paddedData = .ok padded := ⟨_, rfl⟩
  obtain ⟨trailed, remade⟩ : ∃ trailed, Image.strided 2 2 .rgba 8 trailedData = .ok trailed :=
    ⟨_, rfl⟩
  obtain ⟨bytes, coded, length, shows, alike⟩ := packed_picture_shows_every_pixel made .argb
  obtain ⟨pixel, last, stands⟩ := shows 1 1 (by decide) (by decide)
  cases last
  refine ⟨padded, trailed, bytes, made, remade, coded, alike _ _ _ remade ?_, length, stands⟩
  intro x y column row
  have places : (x = 0 ∨ x = 1) ∧ (y = 0 ∨ y = 1) := by
    change x < 2 at column
    change y < 2 at row
    omega
  obtain ⟨rfl | rfl, rfl | rfl⟩ := places <;> decide

end ImageFormat

end NutContainer
