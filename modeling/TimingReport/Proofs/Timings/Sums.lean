import TimingReport.Proofs.Timings.Arithmetic
import TimingReport.Timings

/-!
# Sums of timings

A sum of timings is not below zero. Each addition that rounds may change it by one part of the
roundoff, which bounds the error of a whole sum and tells which sums do not overflow.
-/

namespace TimingReport

open Binary64

namespace Timings

open Load

variable {values : List Binary64} {x : Binary64}

/-- The exact sum of timings in units. -/
def total (values : List Binary64) : Nat := (values.map units).sum

theorem total_concat (values : List Binary64) (x : Binary64) :
    total (values ++ [x]) = total values + x.units := by
  simp [total]

theorem sum_concat (values : List Binary64) (x : Binary64) :
    sum (values ++ [x]) = sum values + x := List.foldl_concat ..

/-- A sum that does not overflow is a timing again. -/
theorem isTiming_sum (hvalues : ∀ x ∈ values, IsTiming x) (hfinite : (sum values).isFinite) :
    IsTiming (sum values) := by
  induction values using List.reverseRecOn with
  | nil => exact IsTiming.zero true
  | append_singleton values x ih =>
      obtain ⟨hvalues, hx⟩ := List.forall_mem_append.mp hvalues
      rw [sum_concat] at hfinite ⊢
      exact (ih hvalues (isFinite_of_add hfinite)).add (hx x List.mem_cons_self) hfinite

/-- What one more timing does to a sum that does not overflow. -/
theorem isTiming_of_sum_concat (hvalues : ∀ y ∈ values ++ [x], IsTiming y)
    (hfinite : (sum (values ++ [x])).isFinite) :
    IsTiming (sum values) ∧ IsTiming x ∧
      (sum (values ++ [x])).magnitude = nearest ((sum values).units + x.units) 1 := by
  obtain ⟨hvalues, hx⟩ := List.forall_mem_append.mp hvalues
  rw [sum_concat] at hfinite ⊢
  have hsum := isTiming_sum hvalues (isFinite_of_add hfinite)
  have hx := hx x List.mem_cons_self
  exact ⟨hsum, hx, hsum.magnitude_add hx⟩

theorem units_sum_singleton (hx : IsTiming x) : (sum [x]).units = x.units := by
  have hsum : (sum [x]).magnitude = nearest (unitsOf x.magnitude) 1 := by
    have hadd := (IsTiming.zero true).magnitude_add hx
    rwa [units_zero, Nat.zero_add] at hadd
  rw [units, hsum, nearest_unitsOf, Nat.min_eq_left hx.magnitude_lt.le]
  rfl

/-- What one more addition does to the bounds of a sum: it is one more rounding. -/
theorem bounds_step {k : Nat} {part all next result : ℚ}
    (hpart : (1 - roundoff) ^ k * all ≤ part ∧ part ≤ (1 + roundoff) ^ k * all)
    (hround : |result - (part + next)| ≤ roundoff * (part + next)) (hnext : 0 ≤ next) :
    (1 - roundoff) ^ (k + 1) * (all + next) ≤ result ∧
      result ≤ (1 + roundoff) ^ (k + 1) * (all + next) := by
  have hlow : (1 - roundoff) ^ k ≤ 1 := pow_le_one₀ one_sub_roundoff.1 one_sub_roundoff.2
  have hhigh : 1 ≤ (1 + roundoff) ^ k := one_le_pow₀ one_add_roundoff.2
  obtain ⟨hbelow, habove⟩ := abs_le.mp hround
  constructor
  · calc
      (1 - roundoff) ^ (k + 1) * (all + next) =
          (1 - roundoff) * ((1 - roundoff) ^ k * all + (1 - roundoff) ^ k * next) := by ring
      _ ≤ (1 - roundoff) * (part + next) :=
        mul_le_mul_of_nonneg_left
          (add_le_add hpart.1 (mul_le_of_le_one_left hnext hlow)) one_sub_roundoff.1
      _ ≤ result := by linarith
  · calc
      result ≤ (1 + roundoff) * (part + next) := by linarith
      _ ≤ (1 + roundoff) * ((1 + roundoff) ^ k * all + (1 + roundoff) ^ k * next) :=
        mul_le_mul_of_nonneg_left
          (add_le_add hpart.2 (le_mul_of_one_le_left hnext hhigh)) one_add_roundoff.1
      _ = (1 + roundoff) ^ (k + 1) * (all + next) := by ring

/-- Every addition but the first may round. -/
theorem sum_bounds (hvalues : ∀ x ∈ values, IsTiming x) (hfinite : (sum values).isFinite) :
    (1 - roundoff) ^ (values.length - 1) * total values ≤ (sum values).units ∧
      (sum values).units ≤ (1 + roundoff) ^ (values.length - 1) * total values := by
  induction values using List.reverseRecOn with
  | nil => simp [total, sum]
  | append_singleton values x ih =>
      obtain ⟨hsum, hx, hadd⟩ := isTiming_of_sum_concat hvalues hfinite
      cases hlength : values.length with
      | zero =>
          rw [List.length_eq_zero_iff] at hlength
          simp [hlength, units_sum_singleton hx, total]
      | succ k =>
          -- the sum so far is within its bounds, and the addition adds one rounding
          have hpart := ih (List.forall_mem_append.mp hvalues).1 hsum.1
          have hround := (abs_unitsOf_nearest_sub_le (hadd ▸ of_decide_eq_true hfinite)).1
          rw [hlength, Nat.add_sub_cancel] at hpart
          have hunits : (sum (values ++ [x])).units =
              unitsOf (nearest ((sum values).units + x.units) 1) := congrArg unitsOf hadd
          rw [List.length_append, hlength, List.length_singleton, Nat.add_sub_cancel,
            total_concat, hunits]
          push_cast at hround ⊢
          exact bounds_step hpart hround (Nat.cast_nonneg _)

/-- A sum with room for the roundings of its additions does not overflow. -/
theorem isFinite_sum {bound : Nat} (hbound : bound < infinity)
    (hvalues : ∀ x ∈ values, IsTiming x)
    (hroom : (1 + roundoff) ^ (values.length - 1) * total values ≤ unitsOf bound) :
    (sum values).isFinite := by
  induction values using List.reverseRecOn with
  | nil => exact (IsTiming.zero true).1
  | append_singleton values x ih =>
      obtain ⟨hvalues, hx⟩ := List.forall_mem_append.mp hvalues
      have hx := hx x List.mem_cons_self
      rw [List.length_append, List.length_singleton, Nat.add_sub_cancel, total_concat] at hroom
      push_cast at hroom
      have hpow : (1 + roundoff) ^ (values.length - 1) ≤ (1 + roundoff) ^ values.length :=
        pow_le_pow_right₀ one_add_roundoff.2 (Nat.sub_le _ _)
      have hx_le : (x.units : ℚ) ≤ (1 + roundoff) ^ values.length * x.units :=
        le_mul_of_one_le_left (Nat.cast_nonneg _) (one_le_pow₀ one_add_roundoff.2)
      have hpart : (1 + roundoff) ^ (values.length - 1) * total values ≤
          (1 + roundoff) ^ values.length * (total values : ℚ) := by gcongr
      have hfinite := ih hvalues (by linarith [Nat.cast_nonneg (α := ℚ) x.units])
      have hsum : ((sum values).units + x.units : ℚ) ≤ unitsOf bound := by
        linarith [(sum_bounds hvalues hfinite).2]
      have hadd := (isTiming_sum hvalues hfinite).magnitude_add hx
      have hle : nearest ((sum values).units + x.units) 1 ≤ bound := by
        refine nearest_le_of_le Nat.one_pos ?_
        rw [Nat.mul_one]
        exact_mod_cast hsum
      rw [sum_concat]
      refine decide_eq_true ?_
      rw [hadd]
      exact Nat.lt_of_le_of_lt hle hbound

end Timings

end TimingReport
