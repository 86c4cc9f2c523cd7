import FleetSharding.Duration
import Mathlib.Algebra.Order.Field.Rat
import Mathlib.Algebra.Order.Ring.Abs
import Mathlib.Tactic.Linarith
import Mathlib.Tactic.Ring

/-!
# Which numbers of seconds are durations

A finite number has an exact value, and reading a duration rounds that value, times a thousand
million, to a natural number.  Nothing is lost before the rounding: the significand of a number with
a fraction is far below the bound on seconds, and a number from 2^53 on is whole, so rounding moves
no number over the bound.

* `roundHalfEven_nearest`: rounding gives the nearest natural number, of two the even one.
* `overflows_iff`: rounding comes to 2^64 seconds exactly if the number does.
* `ofSeconds_cases`: a number is no span, or too long, or it is rounded to the nearest duration.
-/

namespace FleetSharding

section Rounding

variable {num den : Nat}

/-- Rounding is exact where there is nothing to round. -/
theorem roundHalfEven_one (num : Nat) : roundHalfEven num 1 = num := by
  simp [roundHalfEven, Nat.mod_one]

/-- A quotient in the middle is rounded to the even neighbour. -/
theorem roundHalfEven_mod_two (h : 2 * (num % den) = den) : roundHalfEven num den % 2 = 0 := by
  unfold roundHalfEven
  simp only [h, lt_irrefl, if_false]
  split
  · assumption
  · omega

/-- The quotient is in the middle if rounding moves it by half a unit. -/
theorem two_mul_mod_of_half (h : 0 < den)
    (hhalf : 2 * (roundHalfEven num den * den) = 2 * num + den ∨
      2 * num = 2 * (roundHalfEven num den * den) + den) : 2 * (num % den) = den := by
  have hdiv := Nat.div_add_mod num den
  have hlt := Nat.mod_lt num h
  have hmul : (num / den + 1) * den = den * (num / den) + den := by
    rw [Nat.add_mul, Nat.one_mul, Nat.mul_comm]
  have hmul' : num / den * den = den * (num / den) := Nat.mul_comm _ _
  unfold roundHalfEven at hhalf
  simp only at hhalf
  split at hhalf
  · omega
  · split at hhalf
    · omega
    · omega

/-- Different natural numbers are a unit apart. -/
theorem one_le_abs_sub {m r : Nat} (h : m ≠ r) : (1 : ℚ) ≤ |(m : ℚ) - r| := by
  rcases Nat.lt_or_gt_of_ne h with hlt | hlt
  · have hle : (m : ℚ) + 1 ≤ r := by exact_mod_cast hlt
    exact le_abs.2 (Or.inr (by linarith))
  · have hle : (r : ℚ) + 1 ≤ m := by exact_mod_cast hlt
    exact le_abs.2 (Or.inl (by linarith))

/-- **Rounding gives the nearest natural number**, of two the even one. -/
theorem roundHalfEven_nearest (h : 0 < den) {m : Nat} (hm : m ≠ roundHalfEven num den) :
    |(roundHalfEven num den : ℚ) - num / den| ≤ |(m : ℚ) - num / den| ∧
      (|(roundHalfEven num den : ℚ) - num / den| = |(m : ℚ) - num / den| →
        roundHalfEven num den % 2 = 0) := by
  obtain ⟨hlow, hhigh⟩ := @roundHalfEven_near num den h
  have hhalf := roundHalfEven_mod_two ∘ @two_mul_mod_of_half num den h
  generalize roundHalfEven num den = r at hm hlow hhigh hhalf ⊢
  have hden : (0 : ℚ) < den := by exact_mod_cast h
  obtain ⟨w, hw⟩ : ∃ w : ℚ, (num : ℚ) / den = w := ⟨_, rfl⟩
  have hnum : (num : ℚ) = w * den := (div_eq_iff hden.ne').1 hw
  have hlow' : 2 * (r : ℚ) ≤ 2 * w + 1 := by
    have hcast : 2 * ((r : ℚ) * den) ≤ 2 * num + den := by exact_mod_cast hlow
    exact le_of_mul_le_mul_right (by linarith) hden
  have hhigh' : 2 * w ≤ 2 * r + 1 := by
    have hcast : 2 * (num : ℚ) ≤ 2 * (r * den) + den := by exact_mod_cast hhigh
    exact le_of_mul_le_mul_right (by linarith) hden
  have hnear : |(r : ℚ) - w| ≤ 1 / 2 := abs_le.2 ⟨by linarith, by linarith⟩
  have hapart : 1 ≤ |(m : ℚ) - w| + |(r : ℚ) - w| := by
    calc (1 : ℚ) ≤ |(m : ℚ) - r| := one_le_abs_sub hm
      _ ≤ |(m : ℚ) - w| + |w - r| := abs_sub_le _ _ _
      _ = |(m : ℚ) - w| + |(r : ℚ) - w| := by rw [abs_sub_comm w]
  rw [hw]
  refine ⟨by linarith, fun htie => hhalf ?_⟩
  have heq : |(r : ℚ) - w| = 1 / 2 := le_antisymm hnear (by linarith)
  rcases (abs_eq (by linarith)).1 heq with hup | hdown
  · have hmul : 2 * ((r : ℚ) * den) = 2 * num + den := by
      rw [hnum, show (r : ℚ) = w + 1 / 2 by linarith]
      ring
    exact Or.inl (by exact_mod_cast hmul)
  · have hmul : 2 * (num : ℚ) = 2 * (r * den) + den := by
      rw [hnum, show (r : ℚ) = w - 1 / 2 by linarith]
      ring
    exact Or.inr (by exact_mod_cast hmul)

end Rounding

namespace Binary64

/-- The value of a finite number, its sign aside. -/
def abs (x : Binary64) : ℚ := x.ratio.1 / x.ratio.2

/-- A finite number that is not below zero. -/
def IsSpan (x : Binary64) : Prop := x.isFinite = true ∧ (x.isNegative = true → x.isZero = true)

instance (x : Binary64) : Decidable x.IsSpan :=
  inferInstanceAs (Decidable (x.isFinite = true ∧ (x.isNegative = true → x.isZero = true)))

/-- A scaled number is a fraction: nothing is divided by zero. -/
theorem scaled_pos (n : Nat) (e : Int) : 0 < (scaled n e).2 := by
  unfold scaled
  split
  · exact Nat.one_pos
  · exact Nat.pow_pos (by decide)

/-- A significand has 53 bits. -/
theorem magnitude_lt (x : Binary64) : x.magnitude.1 < 2 ^ 53 := by
  have h52 : Nat.pow 2 52 = 4503599627370496 := rfl
  have hfraction : x.absBits % 4503599627370496 < 4503599627370496 := Nat.mod_lt _ (by decide)
  unfold magnitude
  simp only [h52]
  split
  · exact Nat.lt_trans hfraction (by decide)
  · show x.absBits % 4503599627370496 + 4503599627370496 < 9007199254740992
    omega

/-- A number is whole, or below 2^53. -/
theorem ratio_cases (x : Binary64) : x.ratio.2 = 1 ∨ x.ratio.1 < 2 ^ 53 := by
  unfold ratio scaled
  split
  · exact Or.inl rfl
  · exact Or.inr x.magnitude_lt

/-- So is every finite number. -/
theorem ratio_pos (x : Binary64) : 0 < x.ratio.2 := scaled_pos _ _

end Binary64

namespace Duration

/-- No duration is nearer to a number of seconds, and the other one that is as near is odd. -/
def IsNearest (seconds : ℚ) (d : Duration) : Prop :=
  ∀ d' : Duration, d' ≠ d →
    |(d.nanos : ℚ) - seconds * nanosPerSecond| ≤ |(d'.nanos : ℚ) - seconds * nanosPerSecond| ∧
    (|(d.nanos : ℚ) - seconds * nanosPerSecond| = |(d'.nanos : ℚ) - seconds * nanosPerSecond| →
      d.nanos % 2 = 0)

/-- A number's nanoseconds, rounded. -/
def rounded (x : Binary64) : Duration :=
  ⟨roundHalfEven (x.ratio.1 * nanosPerSecond) x.ratio.2⟩

/-- A rounded duration is the nearest one to its number. -/
theorem rounded_isNearest (x : Binary64) : (rounded x).IsNearest x.abs := by
  intro d' hne
  have hm : d'.nanos ≠ (rounded x).nanos := by
    rintro heq
    cases d'
    exact hne (congrArg Duration.mk heq)
  have hvalue : x.abs * nanosPerSecond =
      ((x.ratio.1 * nanosPerSecond : ℕ) : ℚ) / x.ratio.2 := by
    rw [Binary64.abs, Nat.cast_mul, div_mul_eq_mul_div]
  rw [hvalue]
  exact roundHalfEven_nearest x.ratio_pos hm

/-- **Rounding moves no number over the bound on seconds.** -/
theorem overflows_iff (x : Binary64) :
    Nat.pow 2 64 ≤ (rounded x).nanos / nanosPerSecond ↔ (2 : ℚ) ^ 64 ≤ x.abs := by
  have h64 : Nat.pow 2 64 = 2 ^ 64 := rfl
  have hnanos : (rounded x).nanos =
      roundHalfEven (x.ratio.1 * nanosPerSecond) x.ratio.2 := rfl
  have hpos := x.ratio_pos
  rw [Binary64.abs, h64, Nat.le_div_iff_mul_le (by decide), hnanos,
    le_div_iff₀ (by exact_mod_cast hpos)]
  rcases x.ratio_cases with hwhole | hsmall
  · rw [hwhole, roundHalfEven_one, Nat.mul_le_mul_right_iff (by decide), Nat.cast_one, mul_one]
    exact_mod_cast Iff.rfl
  · -- Below 2^53 neither side holds: rounding adds half a nanosecond at most.
    have hsecond : nanosPerSecond = 1000000000 := rfl
    rw [hsecond]
    obtain ⟨hlow, -⟩ := @roundHalfEven_near (x.ratio.1 * 1000000000) x.ratio.2 hpos
    refine ⟨fun hbig => ?_, fun hbig => ?_⟩
    · have hscaled := Nat.mul_le_mul_right x.ratio.2 hbig
      omega
    · have hcast : 2 ^ 64 * x.ratio.2 ≤ x.ratio.1 := by exact_mod_cast hbig
      omega

/-- A number is no span, or it is too long, or it is rounded. -/
theorem ofSeconds_cases (x : Binary64) :
    (¬ x.IsSpan ∧ ofSeconds x = .error .notASpan) ∨
      (x.IsSpan ∧ (2 : ℚ) ^ 64 ≤ x.abs ∧ ofSeconds x = .error .overflow) ∨
      (x.IsSpan ∧ x.abs < (2 : ℚ) ^ 64 ∧ ofSeconds x = .ok (rounded x)) := by
  have hguard : (!x.isFinite || (x.isNegative && !x.isZero)) = true ↔ ¬ x.IsSpan := by
    unfold Binary64.IsSpan
    cases x.isFinite <;> cases x.isNegative <;> cases x.isZero <;> decide
  have hvalue : ofSeconds x =
      if (!x.isFinite || (x.isNegative && !x.isZero)) = true then .error .notASpan
      else if Nat.pow 2 64 ≤ (rounded x).nanos / nanosPerSecond then .error .overflow
      else .ok (rounded x) := rfl
  rw [hvalue]
  simp only [hguard, overflows_iff]
  by_cases hspan : x.IsSpan
  · by_cases hlong : (2 : ℚ) ^ 64 ≤ x.abs
    · exact Or.inr (Or.inl ⟨hspan, hlong, by simp only [hspan, hlong, not_true, if_false, if_true]⟩)
    · exact Or.inr (Or.inr ⟨hspan, lt_of_not_ge hlong, by
        simp only [hspan, hlong, not_true, if_false]⟩)
  · exact Or.inl ⟨hspan, by simp only [hspan, not_false_eq_true, if_true]⟩

end Duration

end FleetSharding
