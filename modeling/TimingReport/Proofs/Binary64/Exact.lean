import Mathlib.Algebra.Order.Ring.Nat
import Mathlib.Tactic.Ring
import TimingReport.Binary64

/-!
# Whole numbers in binary64

Natural numbers up to `2 ^ 53` are binary64 numbers, so a product of two of them is
rounded once: it is the binary64 number nearest to the product.
-/

namespace TimingReport.Binary64

/-! ## Rounding -/

/-- A quotient that divides evenly is not rounded. -/
theorem roundHalfEven_mul (quotient : Nat) {den : Nat} (hden : 0 < den) :
    roundHalfEven (quotient * den) den = quotient := by
  simp [roundHalfEven, Nat.mul_div_cancel quotient hden, hden]

/-- Rounding adds at most one to the whole part. -/
theorem roundHalfEven_le (num den : Nat) : roundHalfEven num den ≤ num / den + 1 := by
  unfold roundHalfEven
  dsimp only
  split
  · omega
  · split <;> omega

/-- A common factor does not change the rounding. -/
theorem roundHalfEven_mul_mul {factor : Nat} (hfactor : 0 < factor) (num den : Nat) :
    roundHalfEven (factor * num) (factor * den) = roundHalfEven num den := by
  have hdouble : 2 * (factor * (num % den)) = factor * (2 * (num % den)) := Nat.mul_left_comm ..
  simp only [roundHalfEven, Nat.mul_div_mul_left num den hfactor, Nat.mul_mod_mul_left, hdouble,
    Nat.mul_lt_mul_left hfactor]

/-- A common factor of a fraction does not matter. -/
theorem nearest_mul_mul {factor : Nat} (hfactor : 0 < factor) (num den : Nat) :
    nearest (factor * num) (factor * den) = nearest num den := by
  simp only [nearest, Nat.mul_div_mul_left num den hfactor, Nat.mul_assoc,
    roundHalfEven_mul_mul hfactor]

/-! ## Exact patterns -/

/-- The number has 53 significant bits at the given binary scale. -/
structure Normal (units quotient k : Nat) : Prop where
  eq : units = quotient * Nat.pow 2 k
  le : octave ≤ quotient
  lt : quotient < 2 * octave

theorem pow_mul_pow (i j : Nat) : Nat.pow 2 i * Nat.pow 2 j = Nat.pow 2 (i + j) :=
  (Nat.pow_add 2 i j).symm

theorem octave_mul_pow (k : Nat) : octave * Nat.pow 2 k = Nat.pow 2 (52 + k) :=
  pow_mul_pow 52 k

theorem two_mul_pow (k : Nat) : 2 * Nat.pow 2 k = Nat.pow 2 (k + 1) :=
  (Nat.pow_succ').symm

variable {units quotient k : Nat}

theorem Normal.log2 (hnormal : Normal units quotient k) : units.log2 = 52 + k := by
  obtain ⟨rfl, hle, hlt⟩ := hnormal
  have hlow : Nat.pow 2 (52 + k) ≤ quotient * Nat.pow 2 k := by
    rw [← octave_mul_pow]
    exact Nat.mul_le_mul_right _ hle
  have hhigh : quotient * Nat.pow 2 k < Nat.pow 2 (52 + k + 1) := by
    rw [← two_mul_pow, ← octave_mul_pow, ← Nat.mul_assoc]
    exact Nat.mul_lt_mul_of_pos_right hlt (Nat.two_pow_pos k)
  have hne : quotient * Nat.pow 2 k ≠ 0 :=
    Nat.ne_of_gt (Nat.lt_of_lt_of_le (Nat.two_pow_pos (52 + k)) hlow)
  exact (Nat.log2_eq_iff hne).mpr ⟨hlow, hhigh⟩

/-- Units with 53 significant bits are rounded to their own pattern. -/
theorem Normal.nearest_eq (hnormal : Normal units quotient k) :
    nearest units 1 = min (k * octave + quotient) infinity := by
  have hscale : units.log2 - 52 = k := by
    rw [hnormal.log2, Nat.add_sub_cancel_left]
  have hround : roundHalfEven units (1 * Nat.pow 2 k) = quotient := by
    rw [hnormal.eq, Nat.one_mul]
    exact roundHalfEven_mul quotient (Nat.two_pow_pos k)
  simp only [nearest, Nat.div_one, hscale, hround]

/-- The pattern of units with 53 significant bits stands for them. -/
theorem Normal.unitsOf_eq (hnormal : Normal units quotient k) :
    unitsOf (k * octave + quotient) = units := by
  have hscale : scale (k * octave + quotient) = k := by
    have hle := hnormal.le
    have hlt := hnormal.lt
    simp only [scale, octave] at *
    omega
  rw [unitsOf, hscale, Nat.add_sub_cancel_left, ← hnormal.eq]

/-! ## Natural numbers -/

/-- The largest number up to which every natural number is a binary64 number. -/
def maxWhole : Nat := 0x20_0000_0000_0000

variable {n : Nat}

/-- A power of two times an exact count has 53 significant bits at some scale. -/
theorem exists_normal (hpos : 0 < n) (hn : n ≤ maxWhole) {e : Nat} (he : 52 ≤ e) :
    ∃ quotient k, Normal (n * Nat.pow 2 e) quotient k ∧ k ≤ e + 1 := by
  by_cases hmax : n = maxWhole
  · subst hmax
    refine ⟨octave, e + 1, ⟨?_, Nat.le_refl _, by decide⟩, Nat.le_refl _⟩
    rw [← two_mul_pow, ← Nat.mul_assoc]
    rfl
  · -- shifted until its leading bit is the 53rd
    have hne : n ≠ 0 := Nat.ne_of_gt hpos
    have hlow : Nat.pow 2 n.log2 ≤ n := Nat.log2_self_le hne
    have hhigh : n < Nat.pow 2 (n.log2 + 1) := Nat.lt_log2_self
    have hlog : n.log2 < 53 := (Nat.log2_lt hne).mpr (Nat.lt_of_le_of_ne hn hmax)
    have hshift : Nat.pow 2 (52 - n.log2) * Nat.pow 2 (e + n.log2 - 52) = Nat.pow 2 e := by
      rw [pow_mul_pow]
      exact congrArg (Nat.pow 2) (by omega)
    have hoctave : Nat.pow 2 n.log2 * Nat.pow 2 (52 - n.log2) = octave := by
      rw [pow_mul_pow, Nat.add_sub_cancel' (Nat.le_of_lt_succ hlog)]
      rfl
    refine ⟨n * Nat.pow 2 (52 - n.log2), e + n.log2 - 52, ⟨?_, ?_, ?_⟩, by omega⟩
    · rw [Nat.mul_assoc, hshift]
    · rw [← hoctave]
      exact Nat.mul_le_mul_right _ hlow
    · rw [← hoctave, ← Nat.mul_assoc, two_mul_pow]
      exact Nat.mul_lt_mul_of_pos_right hhigh (Nat.two_pow_pos _)

/-- Numbers of at most 2097 bits are far enough from overflow. -/
theorem nearest_lt_infinity {num : Nat} (hnum : num.log2 ≤ 2096) : nearest num 1 < infinity := by
  have hlt : num < Nat.pow 2 (52 + (num.log2 - 52) + 1) := by
    have hself : num < Nat.pow 2 (num.log2 + 1) := Nat.lt_log2_self
    exact Nat.lt_of_lt_of_le hself (Nat.pow_le_pow_right (by decide) (by omega))
  have hquotient : num / Nat.pow 2 (num.log2 - 52) < 2 * octave := by
    refine Nat.div_lt_of_lt_mul ?_
    rwa [Nat.mul_comm, Nat.mul_assoc, octave_mul_pow, two_mul_pow]
  have hround := roundHalfEven_le num (1 * Nat.pow 2 (num.log2 - 52))
  simp only [nearest, Nat.div_one, Nat.one_mul] at hround ⊢
  simp only [octave, infinity] at *
  omega

/-- The exponent is kept in a variable, since nothing here computes the unit. -/
theorem exists_unit : ∃ e, unit = Nat.pow 2 e ∧ e = 1074 := by
  refine ⟨1074, ?_, rfl⟩
  delta unit
  with_reducible rfl

theorem unit_pos : 0 < unit := by
  obtain ⟨e, hunit, -⟩ := exists_unit
  exact hunit ▸ Nat.two_pow_pos e

theorem log2_le_of_lt {k : Nat} (hn : n < Nat.pow 2 (k + 1)) : n.log2 ≤ k := by
  cases Nat.eq_zero_or_pos n with
  | inl hzero =>
      rw [hzero]
      exact Nat.zero_le k
  | inr hpos => exact Nat.le_of_lt_succ ((Nat.log2_lt (Nat.ne_of_gt hpos)).mpr hn)

/-- Counts up to the product of two exact ones are finite. -/
theorem isFinite_ofNat (hn : n ≤ maxWhole * maxWhole) : (ofNat n).isFinite := by
  obtain ⟨e, hunit, he⟩ := exists_unit
  have hsquare : maxWhole * maxWhole = Nat.pow 2 106 := by decide
  have hlt : n * unit < Nat.pow 2 (106 + e + 1) := calc
    n * unit ≤ Nat.pow 2 106 * Nat.pow 2 e := by
      rw [hunit, ← hsquare]
      exact Nat.mul_le_mul_right _ hn
    _ = Nat.pow 2 (106 + e) := pow_mul_pow 106 e
    _ < Nat.pow 2 (106 + e + 1) := Nat.pow_lt_pow_right (by decide) (Nat.lt_succ_self _)
  have hlog : (n * unit).log2 ≤ 106 + e := log2_le_of_lt hlt
  exact decide_eq_true (nearest_lt_infinity (by omega))

theorem ofNat_zero : ofNat 0 = zero false := by
  have hnearest : nearest 0 1 = 0 := by decide
  simp only [ofNat, ofUnits, Nat.zero_mul, hnearest, zero]

/-- No count is below zero. -/
theorem not_lt_zero_ofNat (n : Nat) : ¬(ofNat n).lt (zero false) := by
  simp [lt, place, ofNat, ofUnits, zero]

theorem maxWhole_le : maxWhole ≤ maxWhole * maxWhole := by decide

/-- A whole count of a power of two is not rounded. -/
theorem unitsOf_nearest_mul_pow (hn : n ≤ maxWhole) {e : Nat} (hlow : 52 ≤ e) (hhigh : e ≤ 1074) :
    unitsOf (nearest (n * Nat.pow 2 e) 1) = n * Nat.pow 2 e := by
  cases Nat.eq_zero_or_pos n with
  | inl hzero =>
      rw [hzero, Nat.zero_mul]
      decide
  | inr hpos =>
      obtain ⟨quotient, k, hnormal, hk⟩ := exists_normal hpos hn hlow
      have hfinite : k * octave + quotient ≤ infinity := by
        have hlt := hnormal.lt
        simp only [octave, infinity] at *
        omega
      rw [hnormal.nearest_eq, Nat.min_eq_left hfinite, hnormal.unitsOf_eq]

/-- A natural number that is not too large is its own binary64 number. -/
theorem units_ofNat (hn : n ≤ maxWhole) : (ofNat n).units = n * unit := by
  obtain ⟨e, hunit, he⟩ := exists_unit
  rw [units, ofNat, ofUnits]
  dsimp only
  rw [hunit]
  exact unitsOf_nearest_mul_pow hn (by omega) (by omega)

/-- A whole number is not rounded when it is divided by a power of two. -/
theorem unitsOf_nearest_div_pow (hn : n ≤ maxWhole) {k : Nat} (hk : k ≤ 1022) :
    unitsOf (nearest (n * unit * unit) (Nat.pow 2 k * unit)) * Nat.pow 2 k = n * unit := by
  obtain ⟨e, hunit, he⟩ := exists_unit
  have hdivides : unit = Nat.pow 2 (e - k) * Nat.pow 2 k := by
    rw [hunit, pow_mul_pow, Nat.sub_add_cancel (by omega)]
  have hquotient : n * unit * unit = Nat.pow 2 k * unit * (n * Nat.pow 2 (e - k)) := by
    nth_rewrite 1 [hdivides]
    ring
  have hnearest : nearest (n * unit * unit) (Nat.pow 2 k * unit) =
      nearest (n * Nat.pow 2 (e - k)) 1 := by
    rw [hquotient]
    simpa using nearest_mul_mul (Nat.mul_pos (Nat.two_pow_pos k) unit_pos) _ 1
  rw [hnearest, unitsOf_nearest_mul_pow hn (by omega) (by omega), Nat.mul_assoc, ← hdivides]

/-- A finite number is a number and not infinite. -/
theorem isNaN_of_isFinite {x : Binary64} (hx : x.isFinite) :
    x.isNaN = false ∧ x.isInfinite = false := by
  simp only [isFinite, isNaN, isInfinite, decide_eq_true_eq, decide_eq_false_iff_not,
    beq_eq_false_iff_ne] at *
  omega

/-- The product of finite numbers is rounded once. -/
theorem mul_of_isFinite {x y : Binary64} (hx : x.isFinite) (hy : y.isFinite) :
    x * y = ofUnits (x.negative != y.negative) (x.units * y.units) unit := by
  change mul x y = _
  simp [mul, isNaN_of_isFinite hx, isNaN_of_isFinite hy]

/-- The product of natural numbers is rounded once. -/
theorem ofNat_mul_ofNat {m : Nat} (hm : m ≤ maxWhole) (hn : n ≤ maxWhole) :
    ofNat m * ofNat n = ofNat (m * n) := by
  have hunits : m * unit * (n * unit) = unit * (m * n * unit) := by ring
  have hnearest : nearest (unit * (m * n * unit)) unit = nearest (m * n * unit) 1 := by
    simpa using nearest_mul_mul unit_pos (m * n * unit) 1
  rw [mul_of_isFinite (isFinite_ofNat (Nat.le_trans hm maxWhole_le))
    (isFinite_ofNat (Nat.le_trans hn maxWhole_le)), units_ofNat hm, units_ofNat hn, hunits]
  simp only [ofUnits, ofNat, hnearest]
  rfl

end TimingReport.Binary64
