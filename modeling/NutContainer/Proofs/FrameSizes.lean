import NutContainer.Proofs.FrameConversion

/-! The size that the frames of a video stream are measured against. It is the product of the two
sides and of the bytes of a pixel, taken in 64-bit words. The area alone always fits a word, but the
third factor can carry the product beyond it, and then there is a crash before anything is measured.
Nothing stops a description from asking for such a size. It takes sides beyond 31 bits and pixels of
several bytes, so there is none for smaller sides, for grey, and wherever the pixels of a picture
that is itself below `2 ^ 64` bytes do not grow when they are coded. -/
namespace NutContainer

variable {width height : UInt32} {format : PixelFormat}

/-- No area of two 32-bit sides is too large for a word. -/
theorem area_lt (width height : UInt32) : width.toNat * height.toNat < 2 ^ 64 := by
  have below : width.toNat * height.toNat < 2 ^ 32 * 2 ^ 32 :=
    Nat.mul_lt_mul'' width.toNat_lt height.toNat_lt
  omega

theorem bytesPerPixel_le (format : PixelFormat) : format.bytesPerPixel ≤ 4 := by
  cases format <;> decide

theorem frameSize_lt_of_grey (grey : format.bytesPerPixel = 1) :
    frameSize width height format < 2 ^ 64 := by
  rw [frameSize, grey, Nat.mul_one]
  exact area_lt width height

/-- Sides of at most 31 bits have a size that fits, however many bytes a pixel has. -/
theorem frameSize_lt_of_sides (wide : width.toNat < 2 ^ 31) (high : height.toNat < 2 ^ 31) :
    frameSize width height format < 2 ^ 64 := by
  have area : width.toNat * height.toNat < 2 ^ 31 * 2 ^ 31 := Nat.mul_lt_mul'' wide high
  have pixel := Nat.mul_le_mul_left (width.toNat * height.toNat) (bytesPerPixel_le format)
  rw [frameSize]
  omega

/-- A picture has bytes for all of its pixels. -/
theorem Image.frameSize_le (picture : Image) :
    frameSize picture.width picture.height picture.format ≤ picture.data.size := by
  -- The gap between rows is not needed behind the last one, which is counted apart.
  have rows : picture.height.toNat - 1 + 1 = picture.height.toNat :=
    Nat.sub_add_cancel (Nat.pos_of_ne_zero fun none =>
      picture.hasArea.2 (UInt32.toNat_inj.mp none))
  calc frameSize picture.width picture.height picture.format
    _ = rowSize picture.width picture.format * (picture.height.toNat - 1 + 1) := by
      rw [rows, frameSize, rowSize, Nat.mul_right_comm]
    _ = rowSize picture.width picture.format * (picture.height.toNat - 1) +
          rowSize picture.width picture.format := Nat.mul_succ _ _
    _ ≤ picture.stride * (picture.height.toNat - 1) + rowSize picture.width picture.format :=
      Nat.add_le_add_right (Nat.mul_le_mul_right _ picture.rowsApart) _
    _ ≤ picture.data.size := picture.covered

/-- A picture below `2 ^ 64` bytes has a size that fits in every layout with pixels as small. -/
theorem Image.frameSize_lt (picture : Image) (held : picture.data.size < 2 ^ 64)
    (asSmall : format.bytesPerPixel ≤ picture.format.bytesPerPixel) :
    frameSize picture.width picture.height format < 2 ^ 64 := by
  have smaller := Nat.mul_le_mul_left (picture.width.toNat * picture.height.toNat) asSmall
  exact Nat.lt_of_le_of_lt (smaller.trans picture.frameSize_le) held

namespace Converter

variable {converter : Converter} {header : StreamHeader} {frame : Frame}

/-- A coded picture is taken if it has as many bytes as a frame, and refused otherwise. -/
theorem convertImage_coded {picture : Image} {expected : Nat} {coded : Bytes}
    (measures : picture.width = width ∧ picture.height = height)
    (found : converter.format.encode picture = .ok coded) :
    converter.convertImage header width height expected picture =
      if coded.length = expected then .ok ⟨coded, []⟩
      else .error (.imageCoding (.wrongSize header.stream coded.length expected)) := by
  rw [convertImage, if_pos measures, found]
  rfl

/-- A frame of the kind that is asked for is measured against the size that a word takes, and
whatever comes of that is no crash. -/
theorem convert_asked (kind : header.kind = .video)
    (size : header.videoSize? = some (width, height))
    (asked : frame.payload.kind = converter.kindFor .video) :
    ∃ measured : Nat → Except Fault Converted, converter.convert header frame = (do
      let expected ← Failure.inWord (frameSize width height converter.format.pixelFormat)
      Failure.ofRefusal (measured expected)) := by
  cases carried : frame.payload with
  | image picture =>
    exact ⟨_, convert_image kind size (pictures_of_image asked carried) carried⟩
  | buffer bytes =>
    exact ⟨fun expected => .ok (passBuffer header width height expected bytes),
      convert_buffer kind size (noPictures_of_buffer asked carried) carried⟩
  | samples sound =>
    rw [carried, kindFor] at asked
    split at asked <;> cases asked

/-- A frame of the kind that is asked for crashes exactly where its size does not fit a word. -/
theorem convert_crash_iff (kind : header.kind = .video)
    (size : header.videoSize? = some (width, height))
    (asked : frame.payload.kind = converter.kindFor .video) :
    converter.convert header frame = .error .crash ↔
      UInt64.size ≤ frameSize width height converter.format.pixelFormat := by
  obtain ⟨measured, measures⟩ := convert_asked kind size asked
  rw [measures]
  by_cases fits : frameSize width height converter.format.pixelFormat < UInt64.size
  · refine iff_of_false (fun crashed => ?_) (Nat.not_le.mpr fits)
    rw [Failure.inWord_of_lt fits] at crashed
    obtain ⟨_, _, refused⟩ := Failure.ofRefusal_eq_error.mp crashed
    cases refused
  · have beyond := Nat.le_of_not_lt fits
    rw [Failure.inWord_of_le beyond]
    exact iff_of_true rfl beyond

open HeaderPlan

/-- On every video stream that a description leads to, a frame of the kind that is asked for crashes
exactly if the size of the stream does not fit a word, and is measured against that size otherwise:
finished bytes of another number draw a notice and a coded picture of another number is refused, both
with the true size. It fits for pixels of one byte, for sides below `2 ^ 31`, and for a picture that
is itself below `2 ^ 64` bytes and whose pixels do not grow. -/
theorem frames_measured_or_crash {plan : HeaderPlan} {streams : List StreamDescriptor}
    {headers : Headers} {header : StreamHeader} (built : plan.build streams = .ok headers)
    (member : header ∈ headers.streams) (kind : header.kind = .video) (converter : Converter)
    (frame : Frame) (asked : frame.payload.kind = converter.kindFor .video) :
    ∃ width height size, header.videoSize? = some (width, height) ∧
      size = width.toNat * height.toNat * converter.format.pixelFormat.bytesPerPixel ∧
      (converter.convert header frame = .error .crash ↔ 2 ^ 64 ≤ size) ∧
      (converter.format.pixelFormat.bytesPerPixel = 1 ∨
        width.toNat < 2 ^ 31 ∧ height.toNat < 2 ^ 31 → size < 2 ^ 64) ∧
      (∀ bytes, frame.payload = .buffer bytes → size < 2 ^ 64 →
        converter.convert header frame = .ok ⟨bytes, if bytes.length = size then []
          else [.oddBufferSize header.stream bytes.length width height size]⟩) ∧
      ∀ picture, frame.payload = .image picture →
        picture.width = width ∧ picture.height = height →
          (picture.data.size < 2 ^ 64 → converter.format.pixelFormat.bytesPerPixel ≤
            picture.format.bytesPerPixel → size < 2 ^ 64) ∧
          ∀ coded, converter.format.encode picture = .ok coded → size < 2 ^ 64 →
            converter.convert header frame = if coded.length = size then .ok ⟨coded, []⟩
              else .error (.refused
                (.imageCoding (.wrongSize header.stream coded.length size))) := by
  obtain ⟨width, height, size⟩ := videoSize_of_build built member kind
  refine ⟨width, height, _, size, rfl, convert_crash_iff kind size asked, ?_,
    fun bytes carried fits => ?_, fun picture carried measures => ⟨fun held asSmall => ?_,
      fun coded found fits => ?_⟩⟩
  · rintro (grey | ⟨wide, high⟩)
    · exact frameSize_lt_of_grey grey
    · exact frameSize_lt_of_sides wide high
  · rw [convert_buffer_of_fits kind size (noPictures_of_buffer asked carried) fits carried, passBuffer,
      frameSize]
    split <;> rfl
  · obtain ⟨rfl, rfl⟩ := measures
    exact picture.frameSize_lt held asSmall
  · rw [convert_image_of_fits kind size (pictures_of_image asked carried) fits carried,
      convertImage_coded measures found, frameSize]
    split <;> rfl

/-- The size of this stream is four bytes beyond `2 ^ 64`. -/
theorem frames_measured_or_crash_sample :
    ∃ headers header, samplePlan.build [.video 0 25 2147418113 2147549185] = .ok headers ∧
      headers.streams = [header] ∧
      Converter.convert ⟨.packed .rgba, false⟩ header ⟨0, 0, .buffer [1, 2, 3, 4, 5]⟩ =
        .error .crash := by
  obtain ⟨headers, header, built, listed, kind, video⟩ :
      ∃ headers header, samplePlan.build [.video 0 25 2147418113 2147549185] = .ok headers ∧
        headers.streams = [header] ∧ header.kind = .video ∧
        header.videoSize? = some (2147418113, 2147549185) :=
    ⟨_, _, rfl, rfl, rfl, rfl⟩
  obtain ⟨width, height, size, found, exact, crashes, _⟩ :=
    frames_measured_or_crash built (by simp [listed]) kind ⟨.packed .rgba, false⟩
      ⟨0, 0, .buffer [1, 2, 3, 4, 5]⟩ rfl
  cases video.symm.trans found
  have beyond : 2 ^ 64 ≤ size := by
    rw [exact]
    decide
  exact ⟨headers, header, built, listed, crashes.mpr beyond⟩

/-- A description is accepted whose frames have four bytes more than `2 ^ 64`, and a frame of the
kind that is asked for crashes on its stream. -/
theorem frame_beyond_words_crashes :
    ∃ headers header, samplePlan.build [.video 0 25 2147418113 2147549185] = .ok headers ∧
      headers.streams = [header] ∧ header.videoSize? = some (2147418113, 2147549185) ∧
      ∃ converter : Converter, converter = ⟨.packed .rgba, false⟩ ∧
        Payload.kind (.buffer [1, 2, 3, 4]) = converter.kindFor header.kind ∧
        ¬ frameSize 2147418113 2147549185 converter.format.pixelFormat < 2 ^ 64 ∧
        converter.convert header ⟨0, 0, .buffer [1, 2, 3, 4]⟩ = .error .crash :=
  ⟨_, _, rfl, rfl, rfl, _, rfl, rfl, by decide, rfl⟩

end Converter

end NutContainer
