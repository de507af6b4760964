/-!
The range of signed 64-bit numbers, in which times are counted. Times are plain
integers here; where a result could leave the range, the rule says whether it is
refused or held at the nearest end.
-/
namespace NutContainer.Signed64

/-- The least number in range. -/
def least : Int := -0x8000000000000000

/-- The greatest number in range. -/
def greatest : Int := 0x7FFFFFFFFFFFFFFF

/-- A number in range. -/
def Fits (x : Int) : Prop := least ≤ x ∧ x ≤ greatest

instance (x : Int) : Decidable (Fits x) := inferInstanceAs (Decidable (_ ∧ _))

/-- The number in range that is nearest to `x`. -/
def clamp (x : Int) : Int := max least (min greatest x)

theorem clamp_of_fits {x : Int} (fits : Fits x) : clamp x = x := by
  simp only [Fits, clamp] at *
  omega

theorem fits_clamp (x : Int) : Fits (clamp x) := by
  simp only [Fits, clamp, least, greatest]
  omega

end NutContainer.Signed64
