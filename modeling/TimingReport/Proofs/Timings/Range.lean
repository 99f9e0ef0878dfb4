import Mathlib.Algebra.Order.BigOperators.Group.List
import Mathlib.Algebra.Order.Ring.Pow
import Mathlib.Data.List.GetD
import TimingReport.Proofs.Timings
import TimingReport.Proofs.Timings.Sums

/-!
# The range of the statistics

A mean and a median are computed by adding first, so they overflow when those sums do. Where
they do not, the median lies between the least and the greatest timing, and the mean does too
up to the roundings on its way: one for each addition, one for the count and one for the
division.
-/

namespace TimingReport

open Binary64

namespace Timings

open Load

variable {values : List Binary64}

/-! ## What the statistics are computed from -/

/-- Timings in ascending order, and at least one. -/
structure Ascending (sorted : List Binary64) : Prop where
  ne_nil : sorted ≠ []
  pairwise : sorted.Pairwise (·.totalLe ·)
  isTiming : ∀ x ∈ sorted, IsTiming x

/-- All timings of a list lie between two. -/
structure Spans (least greatest : Binary64) (values : List Binary64) : Prop where
  isTiming_least : IsTiming least
  isTiming_greatest : IsTiming greatest
  least_le : ∀ x ∈ values, least.magnitude ≤ x.magnitude
  le_greatest : ∀ x ∈ values, x.magnitude ≤ greatest.magnitude

theorem Ascending.length_pos {sorted : List Binary64} (hsorted : Ascending sorted) :
    0 < sorted.length := List.length_pos_iff.mpr hsorted.ne_nil

theorem ascending_sort (hne : values ≠ []) (hvalues : ∀ x ∈ values, IsTiming x) :
    Ascending (sort values) where
  ne_nil hnil := hne (hnil ▸ sort_perm values).nil_eq.symm
  pairwise := sort_pairwise values
  isTiming _ hx := hvalues _ ((sort_perm values).mem_iff.mp hx)

theorem sort_of_pairwise (hsorted : values.Pairwise (·.totalLe ·)) : sort values = values :=
  List.mergeSort_of_pairwise hsorted

theorem exists_ofList? (hsorted : Ascending (sort values)) :
    ∃ timings, ofList? values = some timings ∧
      timings.mean = sum (sort values) / ofNat (sort values).length ∧
      timings.median = middle (sort values) ∧
      Spans timings.least timings.greatest (sort values) := by
  have hne : values ≠ [] := fun hnil => hsorted.ne_nil (hnil ▸ List.mergeSort_nil)
  obtain ⟨timings, htimings, hread⟩ := exists_readOff hne
  have hvalues := hsorted.isTiming
  refine ⟨timings, htimings, hread.mean, hread.median, hvalues _ hread.least_mem,
    hvalues _ hread.greatest_mem, fun x hx => ?_, fun x hx => ?_⟩
  · exact (hvalues _ hread.least_mem).magnitude_le (hread.least_totalLe hsorted.pairwise hx)
  · exact (hvalues x hx).magnitude_le (hread.totalLe_greatest hsorted.pairwise hx)

section

variable {sorted : List Binary64} {least greatest : Binary64}

/-! ## The median -/

/-- No part of a sum overflows when the sum does not. -/
theorem isFinite_of_sum_append {first second : List Binary64}
    (hfinite : (sum (first ++ second)).isFinite) : (sum first).isFinite := by
  induction second using List.reverseRecOn with
  | nil => simpa using hfinite
  | append_singleton second x ih =>
      rw [← List.append_assoc, sum_concat] at hfinite
      exact ih (isFinite_of_add hfinite)

/-- Two timings at the end of a sum do not overflow when it does not. -/
theorem isFinite_add {first : List Binary64} {x y : Binary64}
    (hvalues : ∀ z ∈ first ++ [x] ++ [y], IsTiming z)
    (hfinite : (sum (first ++ [x] ++ [y])).isFinite) : (x + y).isFinite := by
  obtain ⟨hpart, hy, hsum⟩ := isTiming_of_sum_concat hvalues hfinite
  obtain ⟨hrest, hx, hlast⟩ :=
    isTiming_of_sum_concat (List.forall_mem_append.mp hvalues).1 hpart.1
  have hle : x.units ≤ (sum (first ++ [x])).units := by
    refine unitsOf_strictMono.monotone ?_
    rw [hlast]
    refine le_nearest_of_le Nat.one_pos hx.magnitude_lt.le ?_
    rw [Nat.mul_one]
    exact Nat.le_add_left _ _
  refine decide_eq_true (Nat.lt_of_le_of_lt ?_ (of_decide_eq_true hfinite))
  rw [hx.magnitude_add hy, hsum]
  exact nearest_mono Nat.one_pos Nat.one_pos (by omega)

/-- The two middle timings of an ascending list do not overflow together, if it has two. -/
def MiddleFits (sorted : List Binary64) : Prop :=
  sorted.length % 2 = 0 →
    (sorted.getD (sorted.length / 2 - 1) .nan + sorted.getD (sorted.length / 2) .nan).isFinite

theorem Ascending.middleFits (hsorted : Ascending sorted) (hfinite : (sum sorted).isFinite) :
    MiddleFits sorted := by
  intro heven
  have hlength := hsorted.length_pos
  obtain ⟨k, hhalf⟩ : ∃ k, sorted.length / 2 = k + 1 := ⟨sorted.length / 2 - 1, by omega⟩
  rw [hhalf, Nat.add_sub_cancel, List.getD_eq_getElem _ _ (by omega),
    List.getD_eq_getElem _ _ (by omega)]
  have hsplit : sorted.take (k + 2) = sorted.take k ++ [sorted[k]] ++ [sorted[k + 1]] := by
    rw [List.take_append_getElem, List.take_append_getElem]
  have hwhole : (sum (sorted.take (k + 2) ++ sorted.drop (k + 2))).isFinite := by
    rwa [List.take_append_drop]
  have hpart := isFinite_of_sum_append hwhole
  rw [hsplit] at hpart
  refine isFinite_add (fun x hx => hsorted.isTiming x ?_) hpart
  exact List.mem_of_mem_take (hsplit ▸ hx)

theorem Spans.units (hspans : Spans least greatest values) {x : Binary64} (hx : x ∈ values) :
    least.units ≤ x.units ∧ x.units ≤ greatest.units :=
  ⟨unitsOf_strictMono.monotone (hspans.least_le x hx),
    unitsOf_strictMono.monotone (hspans.le_greatest x hx)⟩

/-- The median is a middle timing, or it lies between the two middle ones. -/
theorem Ascending.middle_between (hsorted : Ascending sorted)
    (hspans : Spans least greatest sorted) (hfits : MiddleFits sorted) :
    IsTiming (middle sorted) ∧ least.le (middle sorted) ∧ (middle sorted).le greatest := by
  have hlength := hsorted.length_pos
  have hupper : sorted.length / 2 < sorted.length := by omega
  have hhigh := List.getElem_mem hupper
  unfold MiddleFits at hfits
  unfold middle
  dsimp only
  rw [List.getD_eq_getElem _ _ hupper] at hfits ⊢
  split
  next heven =>
    have hadd := hfits heven
    have hlower : sorted.length / 2 - 1 < sorted.length := by omega
    rw [List.getD_eq_getElem _ _ hlower] at hadd ⊢
    have hlow := List.getElem_mem hlower
    have hle := (hsorted.isTiming _ hlow).magnitude_le
      (List.pairwise_iff_getElem.mp hsorted.pairwise _ _ hlower hupper (by omega))
    have hunits := (hsorted.isTiming _ hlow).units_add_bounds (hsorted.isTiming _ hhigh) hle hadd
    have hsum := (hsorted.isTiming _ hlow).add (hsorted.isTiming _ hhigh) hadd
    have hleast := (hspans.units hlow).1
    have hgreatest := (hspans.units hhigh).2
    exact ⟨hsum.div Nat.two_pos,
      hsum.le_div hspans.isTiming_least Nat.two_pos (by decide) (by omega),
      hsum.div_le hspans.isTiming_greatest Nat.two_pos (by decide) (by omega)⟩
  next hodd =>
    have hmiddle := hsorted.isTiming _ hhigh
    exact ⟨hmiddle, (hspans.isTiming_least.le_iff hmiddle).mpr (hspans.least_le _ hhigh),
      (hmiddle.le_iff hspans.isTiming_greatest).mpr (hspans.le_greatest _ hhigh)⟩

/-! ## The mean -/

/-- The exact sum lies between the least and the greatest timing taken for each. -/
theorem Spans.total_between (hspans : Spans least greatest values) :
    values.length * least.units ≤ total values ∧
      total values ≤ values.length * greatest.units := by
  constructor
  · simpa [total] using List.card_nsmul_le_sum (values.map Binary64.units) least.units
      (List.forall_mem_map.mpr fun _ hx => (hspans.units hx).1)
  · simpa [total] using List.sum_le_card_nsmul (values.map Binary64.units) greatest.units
      (List.forall_mem_map.mpr fun _ hx => (hspans.units hx).2)

/-- The exact mean lies in the range, and the sum is near the exact one. -/
theorem Ascending.sum_div_bounds (hsorted : Ascending sorted)
    (hspans : Spans least greatest sorted) (hfinite : (sum sorted).isFinite) :
    (1 - roundoff) ^ (sorted.length - 1) * least.units ≤
        ((sum sorted).units / sorted.length : ℚ) ∧
      ((sum sorted).units / sorted.length : ℚ) ≤
        (1 + roundoff) ^ (sorted.length - 1) * greatest.units := by
  have hlength : (0 : ℚ) < sorted.length := by exact_mod_cast hsorted.length_pos
  obtain ⟨hsum_low, hsum_high⟩ := sum_bounds hsorted.isTiming hfinite
  obtain ⟨hlow, hhigh⟩ := hspans.total_between
  rw [Nat.mul_comm] at hlow hhigh
  have hlow : (least.units * sorted.length : ℚ) ≤ total sorted := by exact_mod_cast hlow
  have hhigh : (total sorted : ℚ) ≤ greatest.units * sorted.length := by exact_mod_cast hhigh
  constructor
  · rw [le_div_iff₀ hlength, mul_assoc]
    exact (mul_le_mul_of_nonneg_left hlow (pow_nonneg one_sub_roundoff.1 _)).trans hsum_low
  · rw [div_le_iff₀ hlength, mul_assoc]
    exact hsum_high.trans (mul_le_mul_of_nonneg_left hhigh (pow_nonneg one_add_roundoff.1 _))

/-- So many roundings could shrink a timing to nothing. -/
theorem pow_mul_units_le {x : Binary64} (hx : IsTiming x) {n : Nat} (hn : maxWhole * maxWhole ≤ n) :
    (1 - roundoff) ^ n * x.units ≤ 1 / 2 := by
  have hhalf : (1 - roundoff) ^ maxWhole ≤ 1 / 2 := by
    have htwo : (2 : ℚ) ≤ (1 + roundoff) ^ maxWhole := by
      have hbernoulli := one_add_mul_le_pow (by norm_num [roundoff] : (-2 : ℚ) ≤ roundoff) maxWhole
      have hone : (maxWhole : ℚ) * roundoff = 1 := by norm_num [roundoff, maxWhole]
      linarith
    have hproduct : (1 - roundoff) ^ maxWhole * (1 + roundoff) ^ maxWhole ≤ 1 := by
      rw [← mul_pow]
      exact pow_le_one₀ (by norm_num [roundoff]) (by norm_num [roundoff])
    have hmul := mul_le_mul_of_nonneg_left htwo (pow_nonneg one_sub_roundoff.1 maxWhole)
    linarith
  obtain ⟨e, hunits, he⟩ : ∃ e, x.units ≤ Nat.pow 2 e ∧ e + 1 ≤ maxWhole := by
    have hinfinity : unitsOf infinity = Nat.pow 2 (52 + 2046) :=
      (unitsOf_add (k := 2046) (.inl (Nat.le_refl octave)) (by decide)).trans
        (octave_mul_pow 2046)
    refine ⟨52 + 2046, ?_, by decide⟩
    exact (unitsOf_strictMono.monotone hx.magnitude_lt.le).trans hinfinity.le
  have hunits : (x.units : ℚ) ≤ 2 ^ e := by exact_mod_cast hunits
  calc
    (1 - roundoff) ^ n * x.units ≤ (1 - roundoff) ^ (maxWhole * (e + 1)) * 2 ^ e := by
      refine mul_le_mul ?_ hunits (Nat.cast_nonneg _) (pow_nonneg one_sub_roundoff.1 _)
      exact pow_le_pow_of_le_one one_sub_roundoff.1 one_sub_roundoff.2
        ((Nat.mul_le_mul_left maxWhole he).trans hn)
    _ ≤ (1 / 2) ^ (e + 1) * 2 ^ e := by
      rw [pow_mul]
      gcongr
      exact pow_nonneg one_sub_roundoff.1 _
    _ = 1 / 2 := by
      rw [pow_succ, mul_right_comm, ← mul_pow]
      norm_num

theorem Ascending.mean_bounds (hsorted : Ascending sorted)
    (hspans : Spans least greatest sorted) (hfinite : (sum sorted).isFinite) :
    (1 - roundoff) ^ (sorted.length + 1) * least.units - 1 / 2 ≤
        (sum sorted / ofNat sorted.length).units ∧
      (sum sorted / ofNat sorted.length).units ≤
        (1 + roundoff) ^ (sorted.length + 1) * greatest.units + 1 / 2 := by
  have hsum := isTiming_sum hsorted.isTiming hfinite
  have hlength := hsorted.length_pos
  by_cases hcount : (ofNat sorted.length).isFinite
  · obtain ⟨hdiv_low, hdiv_high⟩ := hsum.div_bounds hlength hcount
    obtain ⟨hlow, hhigh⟩ := hsorted.sum_div_bounds hspans hfinite
    have hexponent : sorted.length + 1 = 2 + (sorted.length - 1) := by omega
    rw [hexponent, pow_add, pow_add, mul_assoc, mul_assoc]
    constructor
    · linarith [mul_le_mul_of_nonneg_left hlow (pow_nonneg one_sub_roundoff.1 2)]
    · linarith [mul_le_mul_of_nonneg_left hhigh (pow_nonneg one_add_roundoff.1 2)]
  · -- nothing is left of a mean of that many timings
    have hzero : (sum sorted / ofNat sorted.length).units = 0 := by
      rw [hsum.div_of_isInfinite hcount, units_zero]
    have hlarge : maxWhole * maxWhole ≤ sorted.length + 1 := by
      by_contra hsmall
      exact hcount (isFinite_ofNat (by omega))
    have hsmall := pow_mul_units_le hspans.isTiming_least hlarge
    have hpos : 0 ≤ (1 + roundoff) ^ (sorted.length + 1) * (greatest.units : ℚ) :=
      mul_nonneg (pow_nonneg one_add_roundoff.1 _) (Nat.cast_nonneg _)
    rw [hzero, Nat.cast_zero]
    constructor <;> linarith

/-- The sum of one or two timings stays in their range, also when it is rounded. -/
theorem Ascending.sum_between (hsorted : Ascending sorted)
    (hspans : Spans least greatest sorted) (hfinite : (sum sorted).isFinite)
    (hexact : (sum sorted).units = total sorted ∨ sorted.length ≤ 2) :
    sorted.length * least.units ≤ (sum sorted).units ∧
      (sum sorted).units ≤ sorted.length * greatest.units := by
  have htotal := hspans.total_between
  obtain ⟨hne, hpairwise, hvalues⟩ := hsorted
  rcases hexact with hexact | hlength
  · rwa [hexact]
  · match sorted with
    | [] => contradiction
    | [x] =>
        rw [units_sum_singleton (hvalues x List.mem_cons_self)]
        simpa [total] using htotal
    | [x, y] =>
        have hx := hvalues x (by simp)
        have hy := hvalues y (by simp)
        have hlast := (isTiming_of_sum_concat (show ∀ z ∈ [x] ++ [y], IsTiming z from hvalues)
          hfinite).2.2
        rw [units_sum_singleton hx, ← hx.magnitude_add hy] at hlast
        have hsum : (sum [x, y]).units = (x + y).units := congrArg unitsOf hlast
        have hadd : (x + y).isFinite := by
          rw [isFinite, ← hlast]
          exact hfinite
        have hunits := hx.units_add_bounds hy (hx.magnitude_le (by simpa using hpairwise)) hadd
        have hleast := (hspans.units (x := x) (by simp)).1
        have hgreatest := (hspans.units (x := y) (by simp)).2
        simp only [List.length_cons, List.length_nil]
        omega

end

/-! ## The range -/

/-- The median lies between the least and the greatest timing. -/
structure MedianInRange (timings : Timings) : Prop where
  median : IsTiming timings.median
  least_le : timings.least.le timings.median
  le_greatest : timings.median.le timings.greatest

/-- The mean lies between the least and the greatest timing up to so many roundings. -/
structure MeanInRange (timings : Timings) (roundings : Nat) : Prop where
  mean : IsTiming timings.mean
  least_le : (1 - roundoff) ^ roundings * timings.least.units - 1 / 2 ≤ timings.mean.units
  le_greatest : (timings.mean.units : ℚ) ≤
    (1 + roundoff) ^ roundings * timings.greatest.units + 1 / 2

theorem total_sort (values : List Binary64) : total (sort values) = total values :=
  ((sort_perm values).map units).sum_eq

/-- Timings with room for the roundings of their sum do not overflow, and their two middle ones
do not where the sum does not. Where the middle ones do not overflow the median is in range,
and where the sum does not the mean is up to the roundings of its additions, its count and its
division. It is exactly in range when no addition rounds, and for one or two timings. -/
theorem inRange_ofList? (hne : values ≠ []) (hvalues : ∀ x ∈ values, IsTiming x) :
    ((1 + roundoff) ^ (values.length - 1) * total values ≤ unitsOf (infinity - 1) →
      (sum (sort values)).isFinite) ∧
    ((sum (sort values)).isFinite → MiddleFits (sort values)) ∧
    ∃ timings, ofList? values = some timings ∧
      (MiddleFits (sort values) → timings.MedianInRange) ∧
      ((sum (sort values)).isFinite → timings.MeanInRange (values.length + 1) ∧
        (values.length ≤ maxWhole →
          (sum (sort values)).units = total values ∨ values.length ≤ 2 →
            timings.least.le timings.mean ∧ timings.mean.le timings.greatest)) := by
  have hsorted := ascending_sort hne hvalues
  obtain ⟨timings, htimings, hmean, hmedian, hspans⟩ := exists_ofList? hsorted
  rw [← total_sort values, ← (sort_perm values).length_eq]
  refine ⟨isFinite_sum (Nat.sub_lt (by decide) Nat.one_pos) hsorted.isTiming,
    hsorted.middleFits, timings, htimings, fun hfits => ?_, fun hfinite => ?_⟩
  · obtain ⟨hmiddle, hleast_le, hle_greatest⟩ := hsorted.middle_between hspans hfits
    rw [← hmedian] at hmiddle hleast_le hle_greatest
    exact ⟨hmiddle, hleast_le, hle_greatest⟩
  · have hsum := isTiming_sum hsorted.isTiming hfinite
    have hlength := hsorted.length_pos
    refine ⟨?_, fun hmax hexact => ?_⟩
    · have hdiv := hsum.div hlength
      obtain ⟨hleast_le, hle_greatest⟩ := hsorted.mean_bounds hspans hfinite
      rw [← hmean] at hdiv hleast_le hle_greatest
      exact ⟨hdiv, hleast_le, hle_greatest⟩
    · obtain ⟨hlow, hhigh⟩ := hsorted.sum_between hspans hfinite hexact
      rw [hmean]
      exact ⟨hsum.le_div hspans.isTiming_least hlength hmax hlow,
        hsum.div_le hspans.isTiming_greatest hlength hmax hhigh⟩

theorem inRange_ofList?_pair :
    let values := [ofNat 1, ofNat 2]
    values ≠ [] ∧ (∀ x ∈ values, IsTiming x) ∧
      (1 + roundoff) ^ (values.length - 1) * total values ≤ unitsOf (infinity - 1) ∧
      (sum (sort values)).isFinite ∧
      ∃ timings, ofList? values = some timings ∧ timings.MedianInRange ∧
        timings.MeanInRange 3 ∧
        timings.least.le timings.mean ∧ timings.mean.le timings.greatest := by
  intro values
  have hne : values ≠ [] := List.cons_ne_nil _ _
  have hvalues : ∀ x ∈ values, IsTiming x := by
    simp only [values, List.forall_mem_cons, IsTiming]
    decide +kernel
  have hroom : (1 + roundoff) ^ (values.length - 1) * total values ≤ unitsOf (infinity - 1) := by
    decide +kernel
  obtain ⟨hsum, hmiddle, timings, htimings, hmedian, hmean⟩ := inRange_ofList? hne hvalues
  have hfinite := hsum hroom
  obtain ⟨hmean, hexact⟩ := hmean hfinite
  exact ⟨hne, hvalues, hroom, hfinite, timings, htimings, hmedian (hmiddle hfinite), hmean,
    hexact (by decide) (.inr (by decide))⟩

/-- Three timings of 0.7 have a mean below each of them, since their sum is rounded down, and
two of the largest finite timings have neither a finite mean nor a finite median. -/
theorem ofList?_out_of_range :
    (IsTiming (ofBits 0x3FE6666666666666) ∧
      ∃ timings, ofList? (List.replicate 3 (ofBits 0x3FE6666666666666)) = some timings ∧
        timings.mean.lt timings.least) ∧
    IsTiming (ofBits 0x7FEFFFFFFFFFFFFF) ∧
      ∃ timings, ofList? (List.replicate 2 (ofBits 0x7FEFFFFFFFFFFFFF)) = some timings ∧
        timings.mean.isInfinite ∧ timings.median.isInfinite := by
  have hsort : ∀ (n : Nat) (x : Binary64), sort (List.replicate n x) = List.replicate n x :=
    fun n x => sort_of_pairwise (List.pairwise_replicate.mpr (.inr (totalLe_refl x)))
  refine ⟨⟨?_, ?_⟩, ?_, ?_⟩
  · rw [IsTiming]
    decide +kernel
  · refine ⟨_, by rw [ofList?, hsort, List.replicate], ?_⟩
    decide +kernel
  · rw [IsTiming]
    decide +kernel
  · refine ⟨_, by rw [ofList?, hsort, List.replicate], ?_⟩
    decide +kernel

end Timings

end TimingReport
