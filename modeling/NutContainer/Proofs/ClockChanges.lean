import Mathlib.Data.Rat.Floor
import NutContainer.Timestamp

/-! What a change of clock does to a time. The count on the new clock is the exact quotient rounded
down, once and for negative times too, and the products that lead to it fit 128 bits for any count
of 64 bits. Rounding down keeps the order of exact times, so milliseconds never turn two times
round, whatever their clocks, and tell them apart when they are a millisecond apart. On a finer
clock with the same numerator nothing is rounded, and the way back is exact. -/
namespace NutContainer.Timestamp

variable {time other : Timestamp} {target : Ratio}

/-- The exact time in seconds. -/
def instant (time : Timestamp) : ℚ := time.ticks * time.base.num.toNat / time.base.den.toNat

/-- How many ticks of another clock a time is, fractions of a tick included. -/
def ticksOn (time : Timestamp) (target : Ratio) : ℚ :=
  time.ticks * time.base.num.toNat * target.den.toNat /
    (time.base.den.toNat * target.num.toNat)

/-- The numbers on the way to another clock have room in 128 bits, one of them for the sign. -/
structure HasRoom (time : Timestamp) (target : Ratio) : Prop where
  scaled : |time.ticks * time.base.num.toNat| < 2 ^ 127
  dividend : |time.ticks * time.base.num.toNat * target.den.toNat| < 2 ^ 127
  divisor : (time.base.den.toNat : ℤ) * target.num.toNat < 2 ^ 127
  quotient : |time.ticks * time.base.num.toNat * target.den.toNat /
    ((time.base.den.toNat : ℤ) * target.num.toNat)| < 2 ^ 127

theorem hasRoom (range : Signed64.Fits time.ticks) (target : Ratio) : time.HasRoom target := by
  have ticks : |time.ticks| ≤ 2 ^ 63 := by
    rw [abs_le]
    simp only [Signed64.Fits, Signed64.least, Signed64.greatest] at range
    omega
  have word (value : UInt32) : |(value.toNat : ℤ)| < 2 ^ 32 := by
    rw [Nat.abs_cast]
    exact_mod_cast value.toNat_lt
  have scaled : |time.ticks * time.base.num.toNat| ≤ 2 ^ 95 := by
    calc |time.ticks * time.base.num.toNat|
      _ = |time.ticks| * |(time.base.num.toNat : ℤ)| := abs_mul ..
      _ ≤ 2 ^ 63 * 2 ^ 32 := mul_le_mul ticks (word _).le (abs_nonneg _) (by decide)
      _ = 2 ^ 95 := by decide
  have dividend : |time.ticks * time.base.num.toNat * target.den.toNat| < 2 ^ 127 := by
    calc |time.ticks * time.base.num.toNat * target.den.toNat|
      _ = |time.ticks * time.base.num.toNat| * |(target.den.toNat : ℤ)| := abs_mul ..
      _ ≤ 2 ^ 95 * |(target.den.toNat : ℤ)| := mul_le_mul_of_nonneg_right scaled (abs_nonneg _)
      _ < 2 ^ 95 * 2 ^ 32 := mul_lt_mul_of_pos_left (word _) (by decide)
      _ = 2 ^ 127 := by decide
  have divisor : |(time.base.den.toNat : ℤ) * target.num.toNat| < 2 ^ 127 := by
    calc |(time.base.den.toNat : ℤ) * target.num.toNat|
      _ = |(time.base.den.toNat : ℤ)| * |(target.num.toNat : ℤ)| := abs_mul ..
      _ ≤ 2 ^ 32 * 2 ^ 32 := mul_le_mul (word _).le (word _).le (abs_nonneg _) (by decide)
      _ < 2 ^ 127 := by decide
  exact ⟨scaled.trans_lt (by decide), dividend, (le_abs_self _).trans_lt divisor,
    (Int.abs_ediv_le_abs _ _).trans_lt dividend⟩

/-- The quotient of the whole numbers is the exact one, rounded down. -/
theorem floor_ticksOn (time : Timestamp) (target : Ratio) :
    ⌊time.ticksOn target⌋ = time.ticks * time.base.num.toNat * target.den.toNat /
      ((time.base.den.toNat : ℤ) * target.num.toNat) := by
  have quotient := Rat.floor_intCast_div_natCast
    (time.ticks * time.base.num.toNat * target.den.toNat) (time.base.den.toNat * target.num.toNat)
  push_cast at quotient
  exact quotient

/-- A time has a count on another clock exactly when both clocks are of use and the exact count,
rounded down, has 64 bits. -/
theorem rescale?_eq (time : Timestamp) (target : Ratio) :
    time.rescale? target =
      if (time.base.den ≠ 0 ∧ target.den ≠ 0 ∧ target.num ≠ 0) ∧
        Signed64.Fits ⌊time.ticksOn target⌋ then some ⟨⌊time.ticksOn target⌋, target⟩ else none := by
  rw [rescale?, floor_ticksOn]
  exact (ite_and ..).symm

theorem rescale?_eq_none :
    time.rescale? target = none ↔ time.base.den = 0 ∨ target.den = 0 ∨ target.num = 0 ∨
      ¬ Signed64.Fits ⌊time.ticksOn target⌋ := by
  rw [rescale?_eq, ite_eq_right_iff]
  simp only [reduceCtorEq, imp_false, not_and_or, ne_eq, not_not, or_assoc]

theorem rescale?_eq_some {result : Timestamp} :
    time.rescale? target = some result ↔
      ((time.base.den ≠ 0 ∧ target.den ≠ 0 ∧ target.num ≠ 0) ∧
        Signed64.Fits ⌊time.ticksOn target⌋) ∧ ⟨⌊time.ticksOn target⌋, target⟩ = result := by
  rw [rescale?_eq, Option.ite_none_right_eq_some, Option.some.injEq]

/-- Milliseconds are the exact time in thousandths of a second, rounded down. -/
theorem floor_of_millis? {millis : ℤ} (found : time.millis? = some millis) :
    millis = ⌊time.instant * 1000⌋ := by
  obtain ⟨result, rescaled, rfl⟩ := Option.map_eq_some_iff.mp found
  obtain ⟨_, rfl⟩ := rescale?_eq_some.mp rescaled
  have ticks : time.ticksOn .millisecond = time.instant * 1000 := by
    change _ * (1000 : ℚ) / (_ * (1 : ℚ)) = _
    rw [mul_one, instant, div_mul_eq_mul_div]
  dsimp only
  rw [ticks]

/-- The order of exact times is the order of their milliseconds, and a millisecond in between
shows. -/
theorem millis_of_instant {millis otherMillis : ℤ} (found : time.millis? = some millis)
    (otherFound : other.millis? = some otherMillis) :
    (time.instant ≤ other.instant → millis ≤ otherMillis) ∧
      (time.instant + 1 / 1000 ≤ other.instant → millis < otherMillis) := by
  rw [floor_of_millis? found, floor_of_millis? otherFound]
  constructor
  · intro early
    exact Int.floor_mono (mul_le_mul_of_nonneg_right early (by norm_num))
  · intro apart
    have behind : time.instant * 1000 + 1 ≤ other.instant * 1000 := by linarith
    rw [Int.lt_iff_add_one_le, ← Int.floor_add_one]
    exact Int.floor_mono behind

section Finer

variable {finer : Ratio} {factor : ℕ}

theorem cast_toNat_ne_zero {value : UInt32} (positive : value ≠ 0) : (value.toNat : ℚ) ≠ 0 :=
  Nat.cast_ne_zero.mpr fun zero => positive (UInt32.toNat_inj.mp zero)

/-- On a finer clock with the same numerator a time is a whole number of ticks. -/
theorem ticksOn_finer (den : time.base.den ≠ 0) (num : time.base.num ≠ 0)
    (same : finer.num = time.base.num) (divided : finer.den.toNat = time.base.den.toNat * factor) :
    time.ticksOn finer = (time.ticks * factor : ℤ) := by
  have den := cast_toNat_ne_zero den
  have num := cast_toNat_ne_zero num
  rw [ticksOn, same, divided]
  push_cast
  field_simp

/-- Back from a finer clock, the count is the old one. -/
theorem ticksOn_back (den : time.base.den ≠ 0) (num : time.base.num ≠ 0) (positive : 1 ≤ factor)
    (same : finer.num = time.base.num) (divided : finer.den.toNat = time.base.den.toNat * factor) :
    ticksOn ⟨time.ticks * factor, finer⟩ time.base = time.ticks := by
  have den := cast_toNat_ne_zero den
  have num := cast_toNat_ne_zero num
  have factors : (factor : ℚ) ≠ 0 := Nat.cast_ne_zero.mpr (Nat.ne_of_gt positive)
  rw [ticksOn, same, divided]
  push_cast
  field_simp

/-- The way to a finer clock leads back to the same time. -/
theorem rescale?_back (range : Signed64.Fits time.ticks) (positive : 1 ≤ factor)
    (same : finer.num = time.base.num) (divided : finer.den.toNat = time.base.den.toNat * factor)
    {there : Timestamp} (found : time.rescale? finer = some there) :
    there.rescale? time.base = some time := by
  obtain ⟨⟨⟨den, finerDen, finerNum⟩, _⟩, rfl⟩ := rescale?_eq_some.mp found
  have num : time.base.num ≠ 0 := same ▸ finerNum
  rw [ticksOn_finer den num same divided, Int.floor_intCast, rescale?_eq_some,
    ticksOn_back den num positive same divided, Int.floor_intCast]
  exact ⟨⟨⟨finerDen, den, num⟩, range⟩, rfl⟩

end Finer

/-- For every time of 64 bits and every clock: there is no count on that clock exactly if a clock
is of no use, the new tick has no length, or the exact count rounded down leaves 64 bits; else that
is the count, and 128 bits are enough on the way to it. Of two times that have milliseconds, on
whatever clocks, the earlier one has no more of them, and fewer if it is earlier by a millisecond.
A time that has a count on a finer clock is found again from there. -/
theorem clock_changes_exact_and_ordered (time : Timestamp) (range : Signed64.Fits time.ticks) :
    (∀ target : Ratio,
      (time.rescale? target = none ↔ time.base.den = 0 ∨ target.den = 0 ∨ target.num = 0 ∨
        ¬ Signed64.Fits ⌊time.ticksOn target⌋) ∧
      (∀ result, time.rescale? target = some result → result = ⟨⌊time.ticksOn target⌋, target⟩) ∧
      time.HasRoom target) ∧
    (∀ (other : Timestamp) (millis otherMillis : ℤ),
      time.millis? = some millis → other.millis? = some otherMillis →
        (time.instant ≤ other.instant → millis ≤ otherMillis) ∧
          (time.instant + 1 / 1000 ≤ other.instant → millis < otherMillis)) ∧
    ∀ (finer : Ratio) (factor : ℕ) (there : Timestamp), 1 ≤ factor →
      finer.num = time.base.num → finer.den.toNat = time.base.den.toNat * factor →
        time.rescale? finer = some there → there.rescale? time.base = some time := by
  refine ⟨fun target => ⟨rescale?_eq_none, fun result found => ?_, hasRoom range target⟩, ?_, ?_⟩
  · exact (rescale?_eq_some.mp found).2.symm
  · exact fun other millis otherMillis => millis_of_instant
  · exact fun finer factor there positive same divided => rescale?_back range positive same divided

/-- Forty-five ticks of a sound clock before zero are more than a millisecond. -/
theorem clock_changes_exact_and_ordered_sample :
    ∃ (time other : Timestamp) (millis otherMillis : ℤ), Signed64.Fits time.ticks ∧
      time = ⟨-45, .perSecond 44100⟩ ∧ other = ⟨0, .perSecond 2000⟩ ∧
      time.millis? = some millis ∧ other.millis? = some otherMillis ∧
      time.instant + 1 / 1000 ≤ other.instant ∧ millis < otherMillis ∧
      time.rescale? ⟨0, 5⟩ = none ∧
      ∃ there, time.rescale? (.perSecond 132300) = some there ∧
        there.rescale? time.base = some time := by
  have range : Signed64.Fits (-45) := by decide
  obtain ⟨counts, ordered, finer⟩ :=
    clock_changes_exact_and_ordered ⟨-45, .perSecond 44100⟩ range
  have apart : instant ⟨-45, .perSecond 44100⟩ + 1 / 1000 ≤ instant ⟨0, .perSecond 2000⟩ := by
    change ((-45 : ℤ) : ℚ) * (1 : ℕ) / (44100 : ℕ) + 1 / 1000 ≤ ((0 : ℤ) : ℚ) * (1 : ℕ) / (2000 : ℕ)
    norm_num
  refine ⟨_, ⟨0, .perSecond 2000⟩, -2, 0, range, rfl, rfl, rfl, rfl, apart, ?_, ?_, _, rfl, ?_⟩
  · exact (ordered _ _ _ rfl rfl).2 apart
  · exact (counts ⟨0, 5⟩).1.mpr (.inr (.inr (.inl rfl)))
  · exact finer (.perSecond 132300) 3 _ (by decide) rfl (by decide) rfl

end NutContainer.Timestamp
