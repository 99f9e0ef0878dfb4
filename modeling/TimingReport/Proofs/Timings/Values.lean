import TimingReport.Proofs.Binary64.Order
import TimingReport.Proofs.Decimal.Places
import TimingReport.Proofs.Timings.Arithmetic

/-!
# The values of timings

A finite number stands for a rational number. Timings are compared as these numbers, whole
numbers that are not rounded stand for themselves, and a timing is written with the places that
are nearest to what it stands for.
-/

namespace TimingReport

open Binary64

namespace Binary64

/-- The rational number that a finite number stands for. -/
def value (x : Binary64) : ℚ := x.signedUnits / unit

theorem value_ofNat {n : Nat} (hn : n ≤ maxWhole) : (ofNat n).value = n := by
  have hunit : (unit : ℚ) ≠ 0 := by exact_mod_cast unit_pos.ne'
  have hsigned : (ofNat n).signedUnits = (ofNat n).units := rfl
  rw [value, hsigned, units_ofNat hn]
  push_cast
  exact mul_div_cancel_right₀ _ hunit

end Binary64

namespace Load.IsTiming

variable {x y : Binary64} {n : Nat}

theorem of_isFinite (hfinite : x.isFinite) (hsign : x.negative = false) : IsTiming x := by
  refine iff_magnitude.mpr ⟨of_decide_eq_true hfinite, fun hnegative => ?_⟩
  rw [hsign] at hnegative
  contradiction

theorem value_eq (hx : IsTiming x) : x.value = x.units / unit := by
  rw [value, hx.signedUnits_eq]
  rfl

/-- Timings are compared as what they stand for. -/
theorem le_iff_value_le (hx : IsTiming x) (hy : IsTiming y) : x.le y ↔ x.value ≤ y.value := by
  have hunit : (0 : ℚ) < unit := by exact_mod_cast unit_pos
  have hunits : x.units ≤ y.units ↔ x.magnitude ≤ y.magnitude := unitsOf_strictMono.le_iff_le
  rw [hx.le_iff hy, hx.value_eq, hy.value_eq, div_le_div_iff_of_pos_right hunit, Nat.cast_le,
    hunits]

theorem ofNat_le_iff (hx : IsTiming x) (hn : n ≤ maxWhole) :
    (ofNat n).le x ↔ (n : ℚ) ≤ x.value := by
  rw [(isTiming_ofNat (hn.trans maxWhole_le)).le_iff_value_le hx, value_ofNat hn]

theorem value_le_iff (hx : IsTiming x) : x.value ≤ n ↔ x.units ≤ n * unit := by
  have hunit : (0 : ℚ) < unit := by exact_mod_cast unit_pos
  rw [hx.value_eq, div_le_iff₀ hunit]
  exact_mod_cast Iff.rfl

theorem le_value_iff (hx : IsTiming x) : n ≤ x.value ↔ n * unit ≤ x.units := by
  have hunit : (0 : ℚ) < unit := by exact_mod_cast unit_pos
  rw [hx.value_eq, le_div_iff₀ hunit]
  exact_mod_cast Iff.rfl

/-! ## Quotients -/

variable {m : Nat}

/-- A whole number that bounds the exact quotient bounds the rounded one. -/
theorem value_div_le (hx : IsTiming x) (hn : 0 < n) (hmax : n ≤ maxWhole) (hm : m ≤ maxWhole)
    (hle : x.value ≤ (n * m : Nat)) : (x / ofNat n).value ≤ m := by
  have hbound := isTiming_ofNat (hm.trans maxWhole_le)
  have hunits : x.units ≤ n * (ofNat m).units := by
    rw [units_ofNat hm, ← Nat.mul_assoc]
    exact hx.value_le_iff.mp hle
  have hdiv := hx.div_le hbound hn hmax hunits
  rwa [(hx.div hn).le_iff_value_le hbound, value_ofNat hm] at hdiv

theorem le_value_div (hx : IsTiming x) (hn : 0 < n) (hmax : n ≤ maxWhole) (hm : m ≤ maxWhole)
    (hle : (n * m : Nat) ≤ x.value) : m ≤ (x / ofNat n).value := by
  have hbound := isTiming_ofNat (hm.trans maxWhole_le)
  have hunits : n * (ofNat m).units ≤ x.units := by
    rw [units_ofNat hm, ← Nat.mul_assoc]
    exact hx.le_value_iff.mp hle
  have hdiv := hx.le_div hbound hn hmax hunits
  rwa [hbound.le_iff_value_le (hx.div hn), value_ofNat hm] at hdiv

/-! ## Places -/

theorem mul_value_eq (hx : IsTiming x) (places : Nat) :
    10 ^ places * x.value = (x.units * Nat.pow 10 places : Nat) / unit := by
  rw [hx.value_eq, Nat.pow_eq]
  push_cast
  rw [mul_comm, div_mul_eq_mul_div]

/-- A timing is written with the places that are nearest to it. -/
theorem nearestEven_scaledUnits (hx : IsTiming x) (places : Nat) :
    Decimal.NearestEven (10 ^ places * x.value) (Decimal.scaledUnits places x) := by
  rw [hx.mul_value_eq]
  exact Decimal.nearestEven_roundHalfEven _ unit_pos

/-- From half-way below an even count on, no smaller one is written. -/
theorem scaledUnits_lt_iff (hx : IsTiming x) (places : Nat) (hn : 0 < n) (heven : Even n) :
    Decimal.scaledUnits places x < n ↔ 10 ^ places * x.value < n - 1 / 2 := by
  have hunit : (0 : ℚ) < unit := by exact_mod_cast unit_pos
  obtain ⟨m, rfl⟩ : ∃ m, n = m + 1 := ⟨n - 1, (Nat.succ_pred_eq_of_pos hn).symm⟩
  have hodd : ¬m % 2 = 0 := by
    have heven := Nat.even_iff.mp heven
    omega
  rw [hx.mul_value_eq, div_lt_iff₀ hunit, Nat.lt_succ_iff, Decimal.scaledUnits,
    roundHalfEven_le_iff unit_pos, or_iff_left fun htie => hodd htie.2]
  generalize x.units * Nat.pow 10 places = num
  generalize unit = den
  have hcast : 2 * num < (2 * m + 1) * den ↔ (2 * num : ℚ) < (2 * m + 1) * den := by
    exact_mod_cast Iff.rfl
  rw [hcast]
  push_cast
  constructor
  · intro hlt
    linarith
  · intro hlt
    linarith

/-- A bound of the timing is one of what is written. -/
theorem scaledUnits_le (hx : IsTiming x) (places : Nat) (hle : 10 ^ places * x.value ≤ n) :
    Decimal.scaledUnits places x ≤ n := by
  have hunit : (0 : ℚ) < unit := by exact_mod_cast unit_pos
  rw [hx.mul_value_eq, div_le_iff₀ hunit] at hle
  rw [← roundHalfEven_mul n unit_pos]
  refine roundHalfEven_mono unit_pos unit_pos (Nat.mul_le_mul_right unit ?_)
  exact_mod_cast hle

theorem le_scaledUnits (hx : IsTiming x) (places : Nat) (hle : n ≤ 10 ^ places * x.value) :
    n ≤ Decimal.scaledUnits places x := by
  have hunit : (0 : ℚ) < unit := by exact_mod_cast unit_pos
  rw [hx.mul_value_eq, le_div_iff₀ hunit] at hle
  rw [← roundHalfEven_mul n unit_pos]
  refine roundHalfEven_mono unit_pos unit_pos (Nat.mul_le_mul_right unit ?_)
  exact_mod_cast hle

end Load.IsTiming

end TimingReport
