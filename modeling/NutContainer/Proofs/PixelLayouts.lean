import NutContainer.PixelFormat

/-! What a layout keeps of a pixel, and what it keeps of a pixel that comes out of another layout.
Six of the layouts hold all three colours, so they can lose the opacity and nothing else. The grey
one holds one weight of the three; since the weights add up to the whole, what is grey already has
its own value for a weight and comes through. -/
namespace NutContainer

namespace Pixel

/-- A grey pixel is as bright as each of its colours. -/
theorem luma_grey (value alpha : UInt8) : luma ⟨value, value, value, alpha⟩ = value := by
  have small := value.toNat_lt
  have weighed : min ((77 * value.toNat + 150 * value.toNat + 29 * value.toNat + 128) / 256) 255 =
      value.toNat := by omega
  rw [luma, weighed, UInt8.ofNat_toNat]

end Pixel

namespace PixelFormat

/-- What is left of a pixel that is stored in a layout. -/
def kept : PixelFormat → Pixel → Pixel
  | gray8, pixel => .opaqueColour pixel.luma pixel.luma pixel.luma
  | rgb24, pixel | bgr24, pixel => { pixel with alpha := 255 }
  | rgba, pixel | bgra, pixel | argb, pixel | abgr, pixel => pixel

/-- A pixel is read as what the layout has kept of it. -/
theorem pixels_encode_append (format : PixelFormat) (pixel : Pixel) (rest : Bytes) :
    format.pixels (format.encode pixel ++ rest) = format.kept pixel :: format.pixels rest := by
  cases format <;> rfl

theorem pixels_encode (format : PixelFormat) (pixel : Pixel) :
    format.pixels (format.encode pixel) = [format.kept pixel] := by
  cases format <;> rfl

/-- As many bytes as a layout has for a pixel are a pixel of that layout, and nothing is lost of
it when they are read. -/
theorem exists_encode {format : PixelFormat} {block : Bytes}
    (whole : block.length = format.bytesPerPixel) :
    ∃ pixel, format.encode pixel = block ∧ format.kept pixel = pixel := by
  cases format with
  | gray8 =>
    match block, whole with
    | [y], _ =>
      have grey : (Pixel.opaqueColour y y y).luma = y := Pixel.luma_grey y 255
      exact ⟨.opaqueColour y y y, by rw [encode, grey], by rw [kept, grey]⟩
  | rgb24 =>
    match block, whole with
    | [r, g, b], _ => exact ⟨.opaqueColour r g b, rfl, rfl⟩
  | bgr24 =>
    match block, whole with
    | [b, g, r], _ => exact ⟨.opaqueColour r g b, rfl, rfl⟩
  | rgba =>
    match block, whole with
    | [r, g, b, a], _ => exact ⟨⟨r, g, b, a⟩, rfl, rfl⟩
  | bgra =>
    match block, whole with
    | [b, g, r, a], _ => exact ⟨⟨r, g, b, a⟩, rfl, rfl⟩
  | argb =>
    match block, whole with
    | [a, r, g, b], _ => exact ⟨⟨r, g, b, a⟩, rfl, rfl⟩
  | abgr =>
    match block, whole with
    | [a, b, g, r], _ => exact ⟨⟨r, g, b, a⟩, rfl, rfl⟩

/-- Storing a pixel twice keeps no less than storing it once. -/
theorem encode_kept (format : PixelFormat) (pixel : Pixel) :
    format.encode (format.kept pixel) = format.encode pixel := by
  cases format with
  | gray8 => rw [kept, encode, encode, Pixel.opaqueColour, Pixel.luma_grey]
  | _ => rfl

theorem kept_of_hasAlpha {format : PixelFormat} (alpha : format.hasAlpha) (pixel : Pixel) :
    format.kept pixel = pixel := by
  cases format <;> first | rfl | cases alpha

/-- What comes out of a layout without opacity is opaque. -/
theorem alpha_kept {format : PixelFormat} (plain : ¬ format.hasAlpha) (pixel : Pixel) :
    (format.kept pixel).alpha = 255 := by
  cases format <;> first | rfl | exact absurd rfl plain

/-- A layout other than the grey one loses the opacity at most. -/
theorem kept_of_colour {format : PixelFormat} (colour : format ≠ .gray8) (pixel : Pixel) :
    format.kept pixel = pixel ∨ format.kept pixel = { pixel with alpha := 255 } := by
  cases format with
  | gray8 => exact absurd rfl colour
  | rgb24 | bgr24 => exact .inr rfl
  | rgba | bgra | argb | abgr => exact .inl rfl

/-- A layout without opacity does not look at it. -/
theorem encode_opaque {format : PixelFormat} (plain : ¬ format.hasAlpha) (pixel : Pixel) :
    format.encode { pixel with alpha := 255 } = format.encode pixel := by
  cases format <;> first | rfl | exact absurd rfl plain

/-- A layout other than the grey one keeps every colour. -/
theorem red_kept {format : PixelFormat} (colour : format ≠ .gray8) (pixel : Pixel) :
    (format.kept pixel).red = pixel.red := by
  rcases kept_of_colour colour pixel with whole | opaquely
  · rw [whole]
  · rw [opaquely]

/-- A picture can go from one layout to another by way of a third: this is the target, or it has
all colours or gets none, and it has opacity or gets none or need not hand it on. -/
def Conveys (source middle target : PixelFormat) : Prop :=
  middle = target ∨ (middle ≠ .gray8 ∨ source = .gray8) ∧
    (middle.hasAlpha ∨ ¬ source.hasAlpha ∨ ¬ target.hasAlpha)

/-- By way of a layout that conveys it, a pixel arrives as it would have directly. -/
theorem Conveys.encode_kept {source middle target : PixelFormat}
    (conveys : source.Conveys middle target) {pixel : Pixel} (own : source.kept pixel = pixel) :
    target.encode (middle.kept pixel) = target.encode pixel := by
  rcases conveys with rfl | ⟨colours, opacity⟩
  · exact middle.encode_kept pixel
  by_cases grey : middle = .gray8
  · have same : source = middle := (colours.resolve_left (not_not_intro grey)).trans grey.symm
    rw [← same, own]
  · rcases kept_of_colour grey pixel with whole | opaquely
    · rw [whole]
    rcases opacity with alpha | plain | blind
    · rw [kept_of_hasAlpha alpha]
    · have solid := alpha_kept plain pixel
      rw [own] at solid
      rw [opaquely, ← solid]
    · rw [opaquely, encode_opaque blind]

/-- A red that cannot be seen. Grey loses the colour of it and other layouts without opacity lose
that it is hidden, so no layout in between that loses anything lets it through. -/
def hiddenRed : Pixel := ⟨255, 0, 0, 0⟩

/-- If one pixel of the source arrives as it would have directly, all do. -/
theorem conveys_of_hiddenRed {source middle target : PixelFormat}
    (arrives : target.encode (middle.kept (source.kept hiddenRed)) =
      target.encode (source.kept hiddenRed)) : source.Conveys middle target := by
  have seen := congrArg target.pixels arrives
  rw [pixels_encode, pixels_encode] at seen
  have seen := List.head_eq_of_cons_eq seen
  by_cases direct : middle = target
  · exact .inl direct
  refine .inr ⟨Classical.byContradiction fun lost => ?_, Classical.byContradiction fun lost => ?_⟩
  · obtain ⟨grey, colour⟩ := not_or.mp lost
    cases Classical.not_not.mp grey
    have red := congrArg Pixel.red seen
    rw [red_kept (Ne.symm direct), red_kept (Ne.symm direct)] at red
    rcases kept_of_colour colour hiddenRed with whole | opaquely
    · rw [whole] at red
      exact absurd red (by decide)
    · rw [opaquely] at red
      exact absurd red (by decide)
  · obtain ⟨plain, alpha, needed⟩ : ¬ middle.hasAlpha ∧ source.hasAlpha ∧ target.hasAlpha := by
      simpa using lost
    have opacity := congrArg Pixel.alpha seen
    rw [kept_of_hasAlpha needed, kept_of_hasAlpha needed, alpha_kept plain,
      kept_of_hasAlpha alpha] at opacity
    exact absurd opacity (by decide)

end PixelFormat

end NutContainer
