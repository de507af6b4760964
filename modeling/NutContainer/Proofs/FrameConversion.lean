import Mathlib.Algebra.Order.Ring.Int
import NutContainer.Converter
import NutContainer.Proofs.DescriptionChecks
import NutContainer.Proofs.PackedPictures

/-! What a frame comes to on its stream. The class of the stream and the settings of the converter
leave one kind of payload, and any other kind is told by its name before its content is looked at.
Of the one that is left, samples and finished bytes never fail; a picture fails unless it has the
size of the stream and its coding, whatever that is, fills a frame exactly. The packed codings do
so for every picture. The size of a frame has to fit a word of 64 bits. Where it does not, there is
a crash, but only for a payload of the kind that is asked for. -/
namespace NutContainer

/-- Reads a sample: four bytes, most significant first, where the upper half of what they can spell
stands for the negative numbers. -/
def readSample? (bytes : Bytes) : Option (Int × Bytes) :=
  (bytes.take? 4).map fun (front, rest) =>
    (if front.toNat < 2 ^ 31 then front.toNat else front.toNat - 2 ^ 32, rest)

theorem length_sampleBytes (sample : Int32) : (sampleBytes sample).length = 4 :=
  Bytes.length_ofNat 4 _

theorem readSample?_append (sample : Int32) (rest : Bytes) :
    readSample? (sampleBytes sample ++ rest) = some (sample.toInt, rest) := by
  have spelled : (sampleBytes sample).toNat = sample.toBitVec.toNat := by
    rw [sampleBytes, Bytes.ofWord32, Bytes.toNat_ofNat]
    exact Nat.mod_eq_of_lt sample.toUInt32.toNat_lt
  have value : sample.toInt = if (sampleBytes sample).toNat < 2 ^ 31
      then ((sampleBytes sample).toNat : Int) else (sampleBytes sample).toNat - 2 ^ 32 := by
    rw [spelled, Int32.toInt, BitVec.toInt_eq_toNat_cond]
    split <;> split <;> omega
  rw [readSample?, Bytes.take?_append (length_sampleBytes sample), Option.map_some, value]

theorem length_samples (sound : List Int32) :
    (sound.flatMap sampleBytes).length = 4 * sound.length := by
  rw [length_flatMap_uniform fun sample _ => length_sampleBytes sample, Nat.mul_comm]

/-- Samples are read back from their bytes, and nothing is left over. -/
theorem many?_samples (sound : List Int32) :
    Bytes.many? readSample? sound.length (sound.flatMap sampleBytes) =
      some (sound.map Int32.toInt, []) := by
  have read := Bytes.many?_map (fun sample (_ : sample ∈ sound) => readSample?_append sample) []
  rwa [List.append_nil] at read

namespace Converter

variable {converter : Converter} {header : StreamHeader} {frame : Frame} {converted : Converted}
  {width height : UInt32} {bytes : Bytes}

/-- The kind of payload that frames of a class carry. -/
def kindFor (converter : Converter) : StreamClass → PayloadKind
  | .video => if converter.generateImages then .image else .buffer
  | .audio => .samples

theorem convertVideo_mismatch {payload : Payload} (other : payload.kind ≠ converter.videoKind) :
    converter.convertVideo header payload = .error (.refused
      (.payloadMismatch header.stream converter.videoKind.name payload.kind.name)) := by
  unfold convertVideo
  dsimp only
  split
  · rename_i asked
    exact absurd asked.symm other
  · rename_i finished
    exact absurd finished.symm other
  · rfl

theorem convertAudio_mismatch {payload : Payload} (other : payload.kind ≠ .samples) :
    convertAudio header payload = .error (.refused
      (.payloadMismatch header.stream PayloadKind.samples.name payload.kind.name)) := by
  cases payload with
  | image picture => rfl
  | buffer bytes => rfl
  | samples sound => exact absurd rfl other

/-- A payload of another kind is told with the stream, the kind that it should be and its own. -/
theorem convert_mismatch (other : frame.payload.kind ≠ converter.kindFor header.kind) :
    converter.convert header frame = .error (.refused (.payloadMismatch header.stream
      (converter.kindFor header.kind).name frame.payload.kind.name)) := by
  cases kind : header.kind with
  | video =>
    rw [kind] at other
    simp only [convert, kind]
    exact convertVideo_mismatch other
  | audio =>
    rw [kind] at other
    simp only [convert, kind]
    exact convertAudio_mismatch other

/-- What converts is of the kind that its stream carries. -/
theorem kind_of_convert (done : converter.convert header frame = .ok converted) :
    frame.payload.kind = converter.kindFor header.kind := by
  by_contra other
  cases done.symm.trans (convert_mismatch other)

theorem pictures_of_image {picture : Image}
    (carries : frame.payload.kind = converter.kindFor .video)
    (carried : frame.payload = .image picture) : converter.generateImages = true := by
  rw [carried, kindFor] at carries
  split at carries
  · assumption
  · cases carries

theorem noPictures_of_buffer (carries : frame.payload.kind = converter.kindFor .video)
    (carried : frame.payload = .buffer bytes) : converter.generateImages = false := by
  rw [carried, kindFor] at carries
  split at carries
  · cases carries
  · rename_i finished
    exact Bool.eq_false_of_not_eq_true finished

theorem convert_image {picture : Image} (kind : header.kind = .video)
    (size : header.videoSize? = some (width, height)) (asked : converter.generateImages = true)
    (carried : frame.payload = .image picture) :
    converter.convert header frame = (do
      let expected ← Failure.inWord (frameSize width height converter.format.pixelFormat)
      Failure.ofRefusal (converter.convertImage header width height expected picture)) := by
  simp only [convert, kind, convertVideo, size, videoKind, asked, carried, Option.getD_some, if_true]

theorem convert_buffer (kind : header.kind = .video)
    (size : header.videoSize? = some (width, height)) (finished : converter.generateImages = false)
    (carried : frame.payload = .buffer bytes) :
    converter.convert header frame = (do
      let expected ← Failure.inWord (frameSize width height converter.format.pixelFormat)
      return passBuffer header width height expected bytes) := by
  simp [convert, kind, convertVideo, size, videoKind, finished, carried]

/-- Where the size of a frame fits, a picture is measured against it. -/
theorem convert_image_of_fits {picture : Image} (kind : header.kind = .video)
    (size : header.videoSize? = some (width, height)) (asked : converter.generateImages = true)
    (fits : frameSize width height converter.format.pixelFormat < UInt64.size)
    (carried : frame.payload = .image picture) :
    converter.convert header frame = Failure.ofRefusal (converter.convertImage header width height
      (frameSize width height converter.format.pixelFormat) picture) := by
  rw [convert_image kind size asked carried, Failure.inWord_of_lt fits]
  rfl

/-- Where the size of a frame fits, finished bytes are passed on, whatever their number. -/
theorem convert_buffer_of_fits (kind : header.kind = .video)
    (size : header.videoSize? = some (width, height)) (finished : converter.generateImages = false)
    (fits : frameSize width height converter.format.pixelFormat < UInt64.size)
    (carried : frame.payload = .buffer bytes) :
    converter.convert header frame = .ok (passBuffer header width height
      (frameSize width height converter.format.pixelFormat) bytes) := by
  rw [convert_buffer kind size finished carried, Failure.inWord_of_lt fits]
  rfl

theorem passBuffer_eq (header : StreamHeader) (width height : UInt32) (expected : Nat)
    (bytes : Bytes) : ∃ notices, passBuffer header width height expected bytes = ⟨bytes, notices⟩ := by
  unfold passBuffer
  split
  · exact ⟨_, rfl⟩
  · exact ⟨_, rfl⟩

/-- A picture becomes what its coding makes of it, if it has the size that is asked for and the
coding fills a frame. -/
theorem convertImage_ok {picture : Image} {expected : Nat} :
    converter.convertImage header width height expected picture = .ok converted ↔
      (picture.width = width ∧ picture.height = height) ∧
        converter.format.encode picture = .ok converted.bytes ∧
        converted.bytes.length = expected ∧ converted.notices = [] := by
  rw [convertImage]
  by_cases size : picture.width = width ∧ picture.height = height
  · rw [if_pos size, and_iff_right size, except_bind_ok]
    constructor
    · rintro ⟨coded, found, fills⟩
      split at fills
      · rename_i whole
        cases fills
        exact ⟨found, whole, rfl⟩
      · cases fills
    · rintro ⟨found, whole, silent⟩
      refine ⟨_, found, ?_⟩
      rw [if_pos whole, ← silent]
      rfl
  · rw [if_neg size]
    exact iff_of_false nofun fun done => size done.1

/-- Samples always convert where there are channels for them. -/
theorem convert_samples {sound : List Int32} (kind : header.kind = .audio)
    (channelled : ∀ rate, header.params ≠ .audio rate 0) (carried : frame.payload = .samples sound) :
    ∃ notices, converter.convert header frame = .ok ⟨sound.flatMap sampleBytes, notices⟩ := by
  have noted : ∃ notices, sampleNotices header sound.length = .ok notices := by
    unfold sampleNotices
    cases params : header.params with
    | video width height => exact ⟨_, rfl⟩
    | audio rate channels =>
      have present : channels ≠ 0 := by
        rintro rfl
        exact channelled rate params
      dsimp only
      rw [if_neg present]
      split
      · exact ⟨_, rfl⟩
      · exact ⟨_, rfl⟩
  obtain ⟨notices, noted⟩ := noted
  simp only [convert, kind, convertAudio, carried, noted]
  exact ⟨notices, rfl⟩

/-- On a video stream pictures convert or finished bytes do, as the converter is set up. -/
theorem convert_video_ok (kind : header.kind = .video)
    (size : header.videoSize? = some (width, height))
    (fits : frameSize width height converter.format.pixelFormat < UInt64.size) :
    (∃ notices, converter.convert header frame = .ok ⟨bytes, notices⟩) ↔
      (converter.generateImages = true ∧ ∃ picture, frame.payload = .image picture ∧
        (picture.width = width ∧ picture.height = height) ∧
        converter.format.encode picture = .ok bytes ∧
        bytes.length = frameSize width height converter.format.pixelFormat) ∨
      (converter.generateImages = false ∧ frame.payload = .buffer bytes) := by
  constructor
  · rintro ⟨notices, done⟩
    have carries := kind_of_convert done
    rw [kind] at carries
    cases carried : frame.payload with
    | image picture =>
      have asked := pictures_of_image carries carried
      rw [convert_image_of_fits kind size asked fits carried, Failure.ofRefusal_eq_ok,
        convertImage_ok] at done
      exact .inl ⟨asked, picture, rfl, done.1, done.2.1, done.2.2.1⟩
    | buffer given =>
      have finished := noPictures_of_buffer carries carried
      obtain ⟨_, passed⟩ := passBuffer_eq header width height
        (frameSize width height converter.format.pixelFormat) given
      rw [convert_buffer_of_fits kind size finished fits carried, passed] at done
      cases done
      exact .inr ⟨finished, rfl⟩
    | samples sound =>
      rw [carried, kindFor] at carries
      split at carries
      · cases carries
      · cases carries
  · rintro (⟨asked, picture, carried, measures, coded, fills⟩ | ⟨finished, carried⟩)
    · rw [convert_image_of_fits kind size asked fits carried]
      exact ⟨[], Failure.ofRefusal_eq_ok.mpr (convertImage_ok.mpr ⟨measures, coded, fills, rfl⟩)⟩
    · rw [convert_buffer_of_fits kind size finished fits carried]
      obtain ⟨notices, passed⟩ := passBuffer_eq header width height
        (frameSize width height converter.format.pixelFormat) bytes
      exact ⟨notices, congrArg Except.ok passed⟩

/-- On an audio stream samples convert and nothing else. -/
theorem convert_audio_ok (kind : header.kind = .audio)
    (channelled : ∀ rate, header.params ≠ .audio rate 0) :
    (∃ converted, converter.convert header frame = .ok converted) ↔
      ∃ sound, frame.payload = .samples sound := by
  constructor
  · rintro ⟨converted, done⟩
    have carries := kind_of_convert done
    rw [kind] at carries
    cases carried : frame.payload with
    | image picture => simp [carried, Payload.kind, kindFor] at carries
    | buffer bytes => simp [carried, Payload.kind, kindFor] at carries
    | samples sound => exact ⟨sound, rfl⟩
  · rintro ⟨sound, carried⟩
    obtain ⟨notices, done⟩ := convert_samples kind channelled carried
    exact ⟨_, done⟩

/-- A packed coding fills a frame with every picture of the right size. -/
theorem convert_packed {target : PixelFormat} {picture : Image} (kind : header.kind = .video)
    (size : header.videoSize? = some (picture.width, picture.height))
    (asked : converter.generateImages = true) (format : converter.format = .packed target)
    (fits : frameSize picture.width picture.height target < UInt64.size)
    (carried : frame.payload = .image picture) :
    converter.convert header frame = .ok ⟨picture.raster target, []⟩ := by
  have given : converter.format.pixelFormat = target := by
    rw [format]
    rfl
  rw [convert_image_of_fits kind size asked (given ▸ fits) carried, Failure.ofRefusal_eq_ok,
    convertImage_ok, format]
  exact ⟨⟨rfl, rfl⟩, ImageFormat.packedBytes_eq target picture, picture.length_raster target, rfl⟩

end Converter

namespace HeaderPlan

variable {plan : HeaderPlan} {streams : List StreamDescriptor} {headers : Headers}
  {header : StreamHeader}

theorem stream_of_build (built : plan.build streams = .ok headers)
    (member : header ∈ headers.streams) :
    ∃ stream, stream.IsComplete ∧ plan.Describes stream header := by
  obtain ⟨place, found⟩ := List.mem_iff_getElem?.mp member
  obtain ⟨stream, listed, derived⟩ := described_of_build built found
  have accepts := build_ok_iff.mp ⟨headers, built⟩
  exact ⟨stream, accepts.complete stream (List.mem_of_getElem? listed),
    describes_of_streamHeader derived⟩

theorem videoSize_of_build (built : plan.build streams = .ok headers)
    (member : header ∈ headers.streams) (kind : header.kind = .video) :
    ∃ width height, header.videoSize? = some (width, height) := by
  obtain ⟨stream, _, describes⟩ := stream_of_build built member
  obtain ⟨_, _, _, width, height, _, _, params⟩ | ⟨_, audio, _⟩ := describes.content
  · exact ⟨width, height, by rw [StreamHeader.videoSize?, params]⟩
  · cases kind.symm.trans audio

/-- The channels of a header are counted from one. -/
theorem channels_of_build (built : plan.build streams = .ok headers)
    (member : header ∈ headers.streams) (kind : header.kind = .audio) :
    ∃ rate channels, header.params = .audio rate channels ∧ channels ≠ 0 := by
  obtain ⟨stream, complete, describes⟩ := stream_of_build built member
  obtain ⟨_, video, _⟩ | ⟨medium, _, _, rate, channels, _, stated, params⟩ := describes.content
  · cases kind.symm.trans video
  · obtain ⟨video, _⟩ | ⟨_, _, count, named, positive⟩ := complete.content
    · cases medium.symm.trans video
    · cases stated.symm.trans named
      exact ⟨_, _, params, positive⟩

end HeaderPlan

namespace Converter

open HeaderPlan

/-- On a video stream a frame converts exactly if pictures are asked for and it carries one of the
stream's size whose coding fills a frame, which the coding then is, or if finished bytes are asked
for and it carries some, which are passed on whatever their number. The size that is asked for is
one that a word holds. On an audio stream it converts exactly if it carries samples, to
four bytes each, from which the samples are read back. A payload of another kind than the stream
carries is told so. In a packed coding every picture of the right size converts. -/
theorem frames_convert_exactly {plan : HeaderPlan} {streams : List StreamDescriptor}
    {headers : Headers} {header : StreamHeader} (built : plan.build streams = .ok headers)
    (member : header ∈ headers.streams) (converter : Converter)
    (fits : ∀ width height, header.videoSize? = some (width, height) →
      width.toNat * height.toNat * converter.format.pixelFormat.bytesPerPixel < 2 ^ 64)
    (frame : Frame) :
    (header.kind = .video → ∃ width height, header.videoSize? = some (width, height) ∧
      Failure.inWord (frameSize width height converter.format.pixelFormat) =
        .ok (width.toNat * height.toNat * converter.format.pixelFormat.bytesPerPixel) ∧
      ∀ bytes, (∃ notices, converter.convert header frame = .ok ⟨bytes, notices⟩) ↔
        (converter.generateImages = true ∧ ∃ picture, frame.payload = .image picture ∧
          (picture.width = width ∧ picture.height = height) ∧
          converter.format.encode picture = .ok bytes ∧
          bytes.length =
            width.toNat * height.toNat * converter.format.pixelFormat.bytesPerPixel) ∨
        (converter.generateImages = false ∧ frame.payload = .buffer bytes)) ∧
    (header.kind = .audio →
      (∃ rate channels, header.params = .audio rate channels ∧ channels ≠ 0) ∧
      ((∃ converted, converter.convert header frame = .ok converted) ↔
        ∃ sound, frame.payload = .samples sound) ∧
      ∀ sound bytes notices, frame.payload = .samples sound →
        converter.convert header frame = .ok ⟨bytes, notices⟩ →
          bytes.length = 4 * sound.length ∧
          Bytes.many? readSample? sound.length bytes = some (sound.map Int32.toInt, [])) ∧
    (frame.payload.kind ≠ converter.kindFor header.kind →
      converter.convert header frame = .error (.refused (.payloadMismatch header.stream
        (converter.kindFor header.kind).name frame.payload.kind.name))) ∧
    ∀ target picture, converter.format = .packed target → converter.generateImages = true →
      header.kind = .video → frame.payload = .image picture →
      header.videoSize? = some (picture.width, picture.height) →
        converter.convert header frame = .ok ⟨picture.raster target, []⟩ := by
  have channelled (kind : header.kind = .audio) (rate : Ratio) : header.params ≠ .audio rate 0 := by
    obtain ⟨_, _, params, positive⟩ := channels_of_build built member kind
    rw [params]
    rintro ⟨⟩
    exact positive rfl
  refine ⟨fun kind => ?_, fun kind => ⟨channels_of_build built member kind,
    convert_audio_ok kind (channelled kind), ?_⟩, convert_mismatch,
    fun target picture format asked kind carried size => ?_⟩
  · obtain ⟨width, height, size⟩ := videoSize_of_build built member kind
    have whole := fits width height size
    exact ⟨width, height, size, Failure.inWord_of_lt whole, fun bytes =>
      convert_video_ok kind size whole⟩
  · intro sound bytes notices carried done
    obtain ⟨_, samples⟩ := convert_samples kind (channelled kind) carried
    cases done.symm.trans samples
    exact ⟨length_samples sound, many?_samples sound⟩
  · have within := fits _ _ size
    rw [format] at within
    exact convert_packed kind size asked format within carried

/-- A picture of two pixels, samples where pictures belong, and two samples on either side of
zero. -/
theorem frames_convert_exactly_sample :
    ∃ headers video audio picture, samplePlan.build
        [.video 0 25 2 1, .audio 1 48000 44100 2] = .ok headers ∧
      headers.streams = [video, audio] ∧ Image.tight 2 1 .rgb24 #[1, 2, 3, 4, 5, 6] = .ok picture ∧
      ∃ converter : Converter, converter = ⟨.packed .bgr24, true⟩ ∧
      (∀ width height, video.videoSize? = some (width, height) →
        width.toNat * height.toNat * converter.format.pixelFormat.bytesPerPixel < 2 ^ 64) ∧
      converter.convert video (.ofImage 0 0 picture) = .ok ⟨picture.raster .bgr24, []⟩ ∧
      converter.convert video ⟨0, 0, .samples [1, -2]⟩ =
        .error (.refused (.payloadMismatch 0 "image" "samples")) ∧
      ∃ bytes notices, converter.convert audio ⟨1, 0, .samples [1, -2]⟩ = .ok ⟨bytes, notices⟩ ∧
        bytes.length = 8 ∧ Bytes.many? readSample? 2 bytes = some ([1, -2], []) := by
  obtain ⟨headers, video, audio, built, listed, pictures, size, number, sounds, silent⟩ :
      ∃ headers video audio, samplePlan.build
          [.video 0 25 2 1, .audio 1 48000 44100 2] = .ok headers ∧
        headers.streams = [video, audio] ∧ video.kind = .video ∧
        video.videoSize? = some (2, 1) ∧ video.stream = 0 ∧
        audio.kind = .audio ∧ audio.videoSize? = none :=
    ⟨_, _, _, rfl, rfl, rfl, rfl, rfl, rfl, rfl⟩
  obtain ⟨picture, made⟩ : ∃ picture, Image.tight 2 1 .rgb24 #[1, 2, 3, 4, 5, 6] = .ok picture :=
    ⟨_, rfl⟩
  obtain ⟨wide, high, _⟩ := Image.strided_ok_iff.mp made
  have fits : ∀ width height, video.videoSize? = some (width, height) →
      width.toNat * height.toNat * PixelFormat.bgr24.bytesPerPixel < 2 ^ 64 := by
    intro width height found
    cases size.symm.trans found
    decide
  have first : video ∈ headers.streams := by simp [listed]
  have second : audio ∈ headers.streams := by simp [listed]
  have onVideo := frames_convert_exactly built first ⟨.packed .bgr24, true⟩ fits
  obtain ⟨_, sound, _⟩ := frames_convert_exactly built second ⟨.packed .bgr24, true⟩
    (by simp [silent]) ⟨1, 0, .samples [1, -2]⟩
  obtain ⟨_, converts, reads⟩ := sound sounds
  obtain ⟨⟨bytes, notices⟩, done⟩ := converts.mpr ⟨_, rfl⟩
  obtain ⟨length, read⟩ := reads _ _ _ rfl done
  refine ⟨headers, video, audio, picture, built, listed, made, _, rfl, fits, ?_, ?_, bytes,
    notices, done, length, read⟩
  · exact (onVideo _).2.2.2 .bgr24 picture rfl rfl pictures rfl (by rw [wide, high, size])
  · have told := (onVideo ⟨0, 0, .samples [1, -2]⟩).2.2.1 (by rw [pictures]; exact nofun)
    rw [pictures, number] at told
    exact told

end Converter

end NutContainer
