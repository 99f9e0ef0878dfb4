import TimingReport.Proofs.Binary64.Error
import TimingReport.Proofs.Binary64.TotalOrder
import TimingReport.Proofs.Load.Entries

/-!
# Arithmetic of timings

Timings are finite and not below zero, so they are ordered by their magnitudes, adding them is
rounding the sum of their units, and dividing one by a count is rounding the quotient. A sum
may overflow; a quotient cannot.
-/

namespace TimingReport

open Binary64

namespace Binary64

variable {x y : Binary64}

theorem isFinite_or (x : Binary64) : x.isFinite ∨ x.isNaN ∨ x.isInfinite := by
  simp only [isFinite, isNaN, isInfinite, decide_eq_true_eq, beq_iff_eq]
  omega

/-- What is infinite or no number stays so when a number is added. -/
theorem isFinite_of_add (hsum : (x + y).isFinite) : x.isFinite := by
  change (add x y).isFinite at hsum
  have hnan : nan.isFinite = false := by decide
  rcases isFinite_or x with hx | hx | hx
  · exact hx
  · simp [add, hx, hnan] at hsum
  · unfold add at hsum
    split at hsum
    · simp [hnan] at hsum
    · split at hsum
      · simp [hnan] at hsum
      · exact hsum

/-- Every pattern has one for its double, which may be the pattern of no finite number. -/
theorem exists_double (pattern : Nat) : ∃ double, unitsOf double = 2 * unitsOf pattern := by
  obtain ⟨k, q, rfl, hq, hlt⟩ := exists_steps pattern
  rw [unitsOf_add hq hlt.le]
  by_cases hoctave : octave ≤ q
  · refine ⟨(k + 1) * octave + q, ?_⟩
    rw [unitsOf_add (.inl hoctave) hlt.le, ← two_mul_pow, Nat.mul_left_comm]
  · obtain rfl := hq.resolve_left hoctave
    refine ⟨0 * octave + 2 * q, ?_⟩
    rw [unitsOf_add (.inr rfl) (by omega), Nat.mul_assoc]

end Binary64

namespace Load.IsTiming

variable {x y sum : Binary64} {n : Nat}

/-! ## Order -/

/-- Of the numbers with a sign only zero is a timing. -/
theorem iff_magnitude : IsTiming x ↔ x.magnitude < infinity ∧ (x.negative → x.magnitude = 0) := by
  obtain ⟨negative, magnitude, hlt⟩ := x
  cases negative
  · simp [IsTiming, isFinite, lt, isNaN, place, zero]
  · simp [IsTiming, isFinite, lt, isNaN, place, zero]
    omega

theorem magnitude_lt (hx : IsTiming x) : x.magnitude < infinity := (iff_magnitude.mp hx).1

theorem units_of_negative (hx : IsTiming x) (hnegative : x.negative) : x.units = 0 := by
  rw [units, (iff_magnitude.mp hx).2 hnegative, unitsOf_zero]

theorem signedUnits_eq (hx : IsTiming x) : x.signedUnits = x.units := by
  unfold signedUnits
  split
  next hnegative =>
    rw [hx.units_of_negative hnegative]
    rfl
  next => rfl

/-- Timings are compared by their magnitudes. -/
theorem le_iff (hx : IsTiming x) (hy : IsTiming y) : x.le y ↔ x.magnitude ≤ y.magnitude := by
  obtain ⟨hx, hxzero⟩ := iff_magnitude.mp hx
  obtain ⟨hy, hyzero⟩ := iff_magnitude.mp hy
  have hplace : ∀ z : Binary64, (z.negative → z.magnitude = 0) → z.place = z.magnitude := by
    intro z hz
    unfold place
    split
    next hnegative => simp [hz hnegative]
    next => rfl
  simp [le, isNaN, hplace x hxzero, hplace y hyzero]
  omega

theorem magnitude_le (hx : IsTiming x) (hle : x.totalLe y) : x.magnitude ≤ y.magnitude := by
  have hplace := totalLe_iff.mp hle
  unfold totalPlace at hplace
  cases hnegative : x.negative
  · simp only [hnegative, Bool.false_eq_true, if_false] at hplace
    split at hplace <;> omega
  · rw [(iff_magnitude.mp hx).2 hnegative]
    exact Nat.zero_le _

theorem zero (negative : Bool) : IsTiming (.zero negative) :=
  iff_magnitude.mpr ⟨show 0 < infinity by decide, fun _ => rfl⟩

/-! ## Sums -/

/-- The sum of two timings is the sum of their units, rounded. -/
theorem magnitude_add (hx : IsTiming x) (hy : IsTiming y) :
    (x + y).magnitude = nearest (x.units + y.units) 1 := by
  have hsum : x.signedUnits + y.signedUnits = ((x.units + y.units : Nat) : Int) := by
    rw [hx.signedUnits_eq, hy.signedUnits_eq]
    rfl
  change (add x y).magnitude = _
  simp only [add, isNaN_of_isFinite hx.1, isNaN_of_isFinite hy.1, Bool.or_self,
    Bool.false_eq_true, if_false, hsum]
  split
  next hzero =>
    have hzero : x.units + y.units = 0 := by exact_mod_cast hzero
    have hnearest : nearest 0 1 = 0 := by decide
    rw [hzero, hnearest, Binary64.zero]
  next => rw [ofUnits, Int.natAbs_natCast]

theorem magnitude_add_of_negative (hx : IsTiming x) (hy : IsTiming y) :
    (x + y).negative → (x + y).magnitude = 0 := by
  have hsum : ¬x.signedUnits + y.signedUnits < 0 := by
    rw [hx.signedUnits_eq, hy.signedUnits_eq]
    omega
  change (add x y).negative → (add x y).magnitude = 0
  simp only [add, isNaN_of_isFinite hx.1, isNaN_of_isFinite hy.1, Bool.or_self,
    Bool.false_eq_true, if_false]
  split
  next => exact fun _ => rfl
  next => simp [ofUnits, hsum]

theorem add (hx : IsTiming x) (hy : IsTiming y) (hfinite : (x + y).isFinite) :
    IsTiming (x + y) :=
  iff_magnitude.mpr ⟨of_decide_eq_true hfinite, magnitude_add_of_negative hx hy⟩

/-- Also when it is rounded, a sum lies between the doubles of its parts. -/
theorem units_add_bounds (hx : IsTiming x) (hy : IsTiming y) (hle : x.magnitude ≤ y.magnitude)
    (hfinite : (x + y).isFinite) :
    2 * x.units ≤ (x + y).units ∧ (x + y).units ≤ 2 * y.units := by
  have hunits : x.units ≤ y.units := unitsOf_strictMono.monotone hle
  have hadd := hx.magnitude_add hy
  have hlt : (x + y).magnitude < infinity := of_decide_eq_true hfinite
  obtain ⟨low, hlow⟩ := exists_double x.magnitude
  obtain ⟨high, hhigh⟩ := exists_double y.magnitude
  change unitsOf low = 2 * x.units at hlow
  change unitsOf high = 2 * y.units at hhigh
  constructor
  · rw [← hlow]
    refine unitsOf_strictMono.monotone ?_
    have hmono : nearest (unitsOf low) 1 ≤ nearest (x.units + y.units) 1 :=
      nearest_mono Nat.one_pos Nat.one_pos (by omega)
    rw [nearest_unitsOf, ← hadd] at hmono
    omega
  · rw [← hhigh]
    refine unitsOf_strictMono.monotone ?_
    rw [hadd]
    exact nearest_le_of_le Nat.one_pos (by omega)

/-! ## Quotients -/

/-- A count too large for the format is infinite, and what is divided by it is zero. -/
theorem div_of_isInfinite (hsum : IsTiming sum) (hinfinite : ¬(ofNat n).isFinite) :
    sum / ofNat n = .zero sum.negative := by
  have hle : (ofNat n).magnitude ≤ infinity := Nat.min_le_right _ _
  have hcount : (ofNat n).isNaN = false ∧ (ofNat n).isInfinite = true := by
    simp only [isFinite, isNaN, isInfinite, decide_eq_true_eq, decide_eq_false_iff_not,
      beq_iff_eq] at *
    omega
  have hsign : (ofNat n).negative = false := rfl
  change Binary64.div sum (ofNat n) = _
  simp [Binary64.div, isNaN_of_isFinite hsum.1, hcount, hsign]

/-- The quotient of a timing is the quotient of the units, rounded. -/
theorem div_of_isFinite (hsum : IsTiming sum) (hn : 0 < n) (hfinite : (ofNat n).isFinite) :
    (sum / ofNat n).magnitude = nearest (sum.units * unit) (ofNat n).units ∧
      ((sum / ofNat n).negative → sum.negative) := by
  have hne : (ofNat n).magnitude ≠ 0 := magnitude_ne_zero (unit_le_units_ofNat hn)
  have hdiv : sum / ofNat n = ofUnits (sum.negative != (ofNat n).negative) (sum.units * unit)
      (ofNat n).units := by
    change Binary64.div sum (ofNat n) = _
    simp [Binary64.div, isNaN_of_isFinite hsum.1, isNaN_of_isFinite hfinite, hne]
  rw [hdiv]
  exact ⟨rfl, by simp [ofUnits, ofNat]⟩

/-- A timing divided by a count is a timing. -/
theorem div (hsum : IsTiming sum) (hn : 0 < n) : IsTiming (sum / ofNat n) := by
  have hunit := unit_le_units_ofNat hn
  by_cases hfinite : (ofNat n).isFinite
  · obtain ⟨hdiv, hnegative⟩ := hsum.div_of_isFinite hn hfinite
    refine iff_magnitude.mpr ⟨?_, fun hnegative_div => ?_⟩
    · rw [hdiv]
      refine Nat.lt_of_le_of_lt ?_ hsum.magnitude_lt
      exact nearest_le_of_le (unit_pos.trans_le hunit) (Nat.mul_le_mul_left _ hunit)
    · rw [hdiv, hsum.units_of_negative (hnegative hnegative_div), Nat.zero_mul]
      exact Nat.le_zero.mp (nearest_le_of_le (unit_pos.trans_le hunit) (Nat.zero_le _))
  · rw [hsum.div_of_isInfinite hfinite]
    exact zero _

/-- A number that bounds the exact quotient bounds what it is rounded to. -/
theorem le_div {least : Binary64} (hsum : IsTiming sum) (hleast : IsTiming least) (hn : 0 < n)
    (hmax : n ≤ maxWhole) (hle : n * least.units ≤ sum.units) : least.le (sum / ofNat n) := by
  rw [hleast.le_iff (hsum.div hn),
    (hsum.div_of_isFinite hn (isFinite_ofNat (hmax.trans maxWhole_le))).1, units_ofNat hmax]
  refine le_nearest_of_le (Nat.mul_pos hn unit_pos) hleast.magnitude_lt.le ?_
  rw [Nat.mul_left_comm, ← Nat.mul_assoc]
  exact Nat.mul_le_mul_right unit hle

theorem div_le {greatest : Binary64} (hsum : IsTiming sum) (hgreatest : IsTiming greatest)
    (hn : 0 < n) (hmax : n ≤ maxWhole) (hle : sum.units ≤ n * greatest.units) :
    (sum / ofNat n).le greatest := by
  rw [(hsum.div hn).le_iff hgreatest,
    (hsum.div_of_isFinite hn (isFinite_ofNat (hmax.trans maxWhole_le))).1, units_ofNat hmax]
  refine nearest_le_of_le (Nat.mul_pos hn unit_pos) ?_
  change sum.units * unit ≤ greatest.units * (n * unit)
  rw [Nat.mul_left_comm, ← Nat.mul_assoc]
  exact Nat.mul_le_mul_right unit hle

/-- The count and the quotient may each be rounded. -/
theorem div_bounds (hsum : IsTiming sum) (hn : 0 < n) (hfinite : (ofNat n).isFinite) :
    (1 - roundoff) ^ 2 * (sum.units / n : ℚ) - 1 / 2 ≤ (sum / ofNat n).units ∧
      (sum / ofNat n).units ≤ (1 + roundoff) ^ 2 * (sum.units / n : ℚ) + 1 / 2 := by
  have hcount : 0 < (ofNat n).units := unit_pos.trans_le (unit_le_units_ofNat hn)
  have hdiv := (hsum.div_of_isFinite hn hfinite).1
  have hround := abs_unitsOf_nearest_sub_div_le hcount (hdiv ▸ (hsum.div hn).magnitude_lt)
  have hexact : |((ofNat n).units : ℚ) - (n * unit : Nat)| ≤ roundoff * (ofNat n).units :=
    (abs_unitsOf_nearest_sub_le (of_decide_eq_true hfinite)).2
  push_cast at hround hexact
  -- the quotient by the rounded count, as a multiple of the quotient by the count
  have hcount : (0 : ℚ) < (ofNat n).units := by exact_mod_cast hcount
  have hn : (0 : ℚ) < n := by exact_mod_cast hn
  have hquotient : (sum.units * unit / (ofNat n).units : ℚ) =
      sum.units / n * (n * unit / (ofNat n).units) := by
    rw [div_mul_div_comm, mul_left_comm, mul_div_mul_left _ _ hn.ne']
  have hratio : 1 - roundoff ≤ n * unit / (ofNat n).units ∧
      n * unit / (ofNat n).units ≤ 1 + roundoff := by
    rw [le_div_iff₀ hcount, div_le_iff₀ hcount]
    constructor <;> linarith [abs_le.mp hexact]
  have hmean : (0 : ℚ) ≤ sum.units / n := div_nonneg (Nat.cast_nonneg _) hn.le
  have hlow := mul_le_mul_of_nonneg_left hratio.1 hmean
  have hhigh := mul_le_mul_of_nonneg_left hratio.2 hmean
  rw [← hquotient] at hlow hhigh
  have hunits : (sum / ofNat n).units = unitsOf (nearest (sum.units * unit) (ofNat n).units) :=
    congrArg unitsOf hdiv
  obtain ⟨hbelow, habove⟩ := abs_le.mp hround
  rw [hunits]
  constructor
  · have hscale := mul_le_mul_of_nonneg_left hlow one_sub_roundoff.1
    linarith
  · have hscale := mul_le_mul_of_nonneg_left hhigh one_add_roundoff.1
    linarith

end Load.IsTiming

end TimingReport
