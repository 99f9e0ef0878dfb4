import Mathlib.Algebra.Order.Field.Rat
import Mathlib.Tactic.FieldSimp
import Mathlib.Tactic.GCongr
import Mathlib.Tactic.Linarith
import Mathlib.Tactic.NormNum
import Mathlib.Tactic.Positivity
import TimingReport.Proofs.Binary64.Rounding

/-!
# The error of rounding

Rounding changes a count by at most half a step. A whole count that needs no steps is exact,
so the error is then a small part of the count; a quotient can also lose half of the smallest
positive number.
-/

namespace TimingReport.Binary64

/-- The part of a number by which rounding to 53 significant bits changes it at most. -/
def roundoff : ℚ := 1 / 2 ^ 53

theorem roundoff_pos : 0 < roundoff := by norm_num [roundoff]

theorem one_sub_roundoff : 0 ≤ 1 - roundoff ∧ 1 - roundoff ≤ 1 := by norm_num [roundoff]

theorem one_add_roundoff : 0 ≤ 1 + roundoff ∧ 1 ≤ 1 + roundoff := by norm_num [roundoff]

theorem abs_roundHalfEven_sub_le (num : Nat) {den : Nat} (hden : 0 < den) :
    |(roundHalfEven num den : ℚ) - num / den| ≤ 1 / 2 := by
  have hpos : (0 : ℚ) < den := by exact_mod_cast hden
  have hquotient := Nat.div_add_mod num den
  have hrest := Nat.mod_lt num hden
  have hhalf : 2 * (roundHalfEven num den * den) ≤ 2 * num + den ∧
      2 * num ≤ 2 * (roundHalfEven num den * den) + den := by
    have hcomm := Nat.mul_comm den (num / den)
    have hsucc : (num / den + 1) * den = num / den * den + den := Nat.succ_mul _ _
    unfold roundHalfEven
    dsimp only
    split
    · omega
    · split
      · omega
      · rcases Nat.mod_two_eq_zero_or_one (num / den) with hparity | hparity
        · rw [hparity, Nat.add_zero]
          omega
        · rw [hparity]
          omega
  obtain ⟨hlow, hhigh⟩ := hhalf
  have hlow : 2 * ((roundHalfEven num den : ℚ) * den) ≤ 2 * num + den := by exact_mod_cast hlow
  have hhigh : 2 * (num : ℚ) ≤ 2 * ((roundHalfEven num den : ℚ) * den) + den := by
    exact_mod_cast hhigh
  have hdiv : (num : ℚ) / den * den = num := div_mul_cancel₀ _ hpos.ne'
  rw [abs_le]
  constructor <;> nlinarith

variable {num den : Nat}

/-- The width of a step. -/
def width (num den : Nat) : ℚ := 2 ^ shift num den

theorem abs_steps_sub_le (num : Nat) (hden : 0 < den) :
    |(steps num den : ℚ) * width num den - num / den| ≤ width num den / 2 := by
  have hwidth : (0 : ℚ) < width num den := by
    unfold width
    positivity
  have hround := abs_roundHalfEven_sub_le num (pos_step num hden)
  have hcast : ((den * Nat.pow 2 (shift num den) : Nat) : ℚ) = den * width num den := by
    rw [width, Nat.pow_eq]
    push_cast
    rfl
  have hpos : (0 : ℚ) < den := by exact_mod_cast hden
  rw [hcast] at hround
  have hscale := mul_le_mul_of_nonneg_right hround hwidth.le
  have heq : ((roundHalfEven num (den * Nat.pow 2 (shift num den)) : ℚ) -
      num / (den * width num den)) * width num den =
        (steps num den : ℚ) * width num den - num / den := by
    rw [steps]
    field_simp
  rw [← abs_of_pos hwidth, ← abs_mul, abs_of_pos hwidth, heq] at hscale
  linarith

theorem cast_unitsOf_nearest (hden : 0 < den) (hfinite : nearest num den < infinity) :
    (unitsOf (nearest num den) : ℚ) = steps num den * width num den := by
  rw [unitsOf_nearest hden hfinite, width, Nat.pow_eq]
  push_cast
  rfl

/-- Steps wider than a unit are small parts of what is rounded and of the result. -/
theorem width_le (hden : 0 < den) (hshift : 0 < shift num den) :
    width num den / 2 ≤ roundoff * (num / den) ∧
      width num den / 2 ≤ roundoff * (steps num den * width num den) := by
  have hpos : (0 : ℚ) < den := by exact_mod_cast hden
  have hwidth : (0 : ℚ) < width num den := by
    unfold width
    positivity
  have hnum : (octave : ℚ) * (den * width num den) ≤ num := by
    have hle := shift_le hshift
    rw [Nat.pow_eq] at hle
    unfold width
    exact_mod_cast hle
  have hsteps : (octave : ℚ) ≤ steps num den := by
    exact_mod_cast octave_le_steps hden hshift
  have hoctave : roundoff * octave = 1 / 2 := by norm_num [roundoff, octave]
  constructor
  · have hquotient : (octave : ℚ) * width num den ≤ num / den := by
      rw [le_div_iff₀ hpos]
      linarith
    have hroundoff := roundoff_pos
    calc
      width num den / 2 = roundoff * octave * width num den := by rw [hoctave]; ring
      _ ≤ roundoff * (num / den) := by
        rw [mul_assoc]
        gcongr
  · have hroundoff : (0 : ℚ) < roundoff := by norm_num [roundoff]
    calc
      width num den / 2 = roundoff * (octave * width num den) := by
        rw [← mul_assoc, hoctave]
        ring
      _ ≤ roundoff * (steps num den * width num den) := by gcongr

/-- A whole count is changed by a small part of it, and of the result. -/
theorem abs_unitsOf_nearest_sub_le (hfinite : nearest num 1 < infinity) :
    |(unitsOf (nearest num 1) : ℚ) - num| ≤ roundoff * num ∧
      |(unitsOf (nearest num 1) : ℚ) - num| ≤ roundoff * unitsOf (nearest num 1) := by
  have hroundoff := roundoff_pos
  cases Nat.eq_zero_or_pos (shift num 1) with
  | inl hzero =>
      -- counts of steps of one unit are exact
      have hexact : unitsOf (nearest num 1) = num := by
        rw [unitsOf_nearest Nat.one_pos hfinite, steps, hzero]
        simpa using roundHalfEven_mul num Nat.one_pos
      rw [hexact, sub_self, abs_zero]
      constructor <;> positivity
  | inr hshift =>
      obtain ⟨hnum, hresult⟩ := width_le Nat.one_pos hshift
      have herror := abs_steps_sub_le num Nat.one_pos
      rw [← cast_unitsOf_nearest Nat.one_pos hfinite] at herror hresult
      simp only [Nat.cast_one, div_one] at herror hnum
      exact ⟨herror.trans hnum, herror.trans hresult⟩

/-- A quotient is changed by a small part of it and by half a unit at most. -/
theorem abs_unitsOf_nearest_sub_div_le (hden : 0 < den) (hfinite : nearest num den < infinity) :
    |(unitsOf (nearest num den) : ℚ) - num / den| ≤ roundoff * (num / den) + 1 / 2 := by
  have hroundoff := roundoff_pos
  have herror := abs_steps_sub_le num hden
  rw [← cast_unitsOf_nearest hden hfinite] at herror
  refine herror.trans ?_
  cases Nat.eq_zero_or_pos (shift num den) with
  | inl hzero =>
      have hquotient : (0 : ℚ) ≤ roundoff * (num / den) := by positivity
      rw [width, hzero]
      linarith
  | inr hshift =>
      have hsmall := (width_le hden hshift).1
      linarith

end TimingReport.Binary64
