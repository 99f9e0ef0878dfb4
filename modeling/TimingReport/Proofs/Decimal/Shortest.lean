import Mathlib.Data.List.DropRight
import TimingReport.Decimal.Shortest
import TimingReport.Proofs.Binary64.Midpoints
import TimingReport.Proofs.Decimal.Digits

/-!
# The search for the shortest decimal

Every grid point that the search accepts is rounded to the pattern that it is for. With
seventeen digits the grid is finer than the distance of the neighbours, so a point is accepted
there if not before, and every finite number has a decimal that is rounded to it.
-/

namespace TimingReport.Decimal.Shortest

open Binary64

variable {pattern num den count point : Nat} {exponent : Int}

/-! ## Intervals -/

theorem holds_iff (i : Interval) : i.holds num den ↔
    (i.low * den < num ∨ i.low * den = num ∧ i.closed) ∧
      (num < i.high * den ∨ num = i.high * den ∧ i.closed) := by
  unfold Interval.holds
  cases i.closed with
  | false => simp
  | true => simp [Nat.le_iff_lt_or_eq]

/-- What the interval of a pattern holds is rounded to the pattern. -/
theorem nearest_of_holds (hden : 0 < den) (hpos : 0 < pattern) (hfinite : pattern < infinity)
    (hholds : (Interval.ofPattern pattern).holds num den) :
    Binary64.nearest num (2 * den) = pattern := by
  rw [holds_iff] at hholds
  simp only [Interval.ofPattern, beq_iff_eq] at hholds
  refine nearest_eq_of_between (Nat.mul_pos Nat.two_pos hden) hpos hfinite ?_ ?_
  · rw [Nat.mul_left_comm]
    omega
  · rw [Nat.mul_left_comm]
    omega

/-! ## Grid points -/

/-- The half-units of a cell of the grid, and by what they are divided. -/
def cell (exponent : Int) (count : Nat) : Nat :=
  2 * unit * Nat.pow 10 (exponent - count).toNat

def parts (exponent : Int) (count : Nat) : Nat := Nat.pow 10 (count - exponent).toNat

theorem parts_pos (exponent : Int) (count : Nat) : 0 < parts exponent count :=
  Nat.pow_pos (by decide)

theorem cell_pos (exponent : Int) (count : Nat) : 0 < cell exponent count :=
  Nat.mul_pos (Nat.mul_pos Nat.two_pos unit_pos) (Nat.pow_pos (by decide))

/-- An accepted point is in the interval of its pattern. -/
theorem holds_of_onGrid? (hpoint : onGrid? pattern exponent count = some point) :
    (Interval.ofPattern pattern).holds (point * cell exponent count) (parts exponent count) := by
  unfold onGrid? at hpoint
  dsimp only at hpoint
  split_ifs at hpoint with hboth hnear hlower hupper
  all_goals cases hpoint
  · exact (Bool.and_eq_true_iff.mp hboth).1
  · exact (Bool.and_eq_true_iff.mp hboth).2
  · exact hlower
  · exact hupper

/-- An accepted point is rounded to its pattern. -/
theorem nearest_of_onGrid? (hpos : 0 < pattern) (hfinite : pattern < infinity)
    (hpoint : onGrid? pattern exponent count = some point) :
    Binary64.nearest (point * Nat.pow 10 (exponent - count).toNat * unit) (parts exponent count) =
      pattern := by
  have hnearest := nearest_of_holds (parts_pos exponent count) hpos hfinite
    (holds_of_onGrid? hpoint)
  have hdouble : point * cell exponent count =
      2 * (point * Nat.pow 10 (exponent - count).toNat * unit) := by
    rw [cell]
    ring
  rw [hdouble] at hnearest
  exact (nearest_mul_mul Nat.two_pos _ _).symm.trans hnearest

/-- If the cells are smaller than the interval, one of the two points around the number is
inside. -/
theorem holds_below_or_above (hpos : 0 < pattern)
    (hcell : cell exponent count <
      (unitsOf (pattern + 1) - unitsOf (pattern - 1)) * parts exponent count) :
    let below := 2 * unitsOf pattern * parts exponent count / cell exponent count
    (Interval.ofPattern pattern).holds (below * cell exponent count) (parts exponent count) ∨
      (Interval.ofPattern pattern).holds ((below + 1) * cell exponent count)
        (parts exponent count) := by
  intro below
  have hfloor : below * cell exponent count ≤ 2 * unitsOf pattern * parts exponent count :=
    Nat.div_mul_le_self _ _
  have hceil : 2 * unitsOf pattern * parts exponent count <
      (below + 1) * cell exponent count := by
    rw [Nat.mul_comm (below + 1)]
    exact Nat.lt_mul_div_succ _ (cell_pos exponent count)
  have hprevious : unitsOf (pattern - 1) * parts exponent count <
      unitsOf pattern * parts exponent count :=
    Nat.mul_lt_mul_of_pos_right (unitsOf_strictMono (Nat.sub_one_lt hpos.ne'))
      (parts_pos exponent count)
  have hnext : unitsOf pattern * parts exponent count <
      unitsOf (pattern + 1) * parts exponent count :=
    Nat.mul_lt_mul_of_pos_right (unitsOf_succ pattern) (parts_pos exponent count)
  rw [Nat.sub_mul] at hcell
  rw [Nat.mul_assoc] at hfloor hceil
  rw [Nat.add_mul, Nat.one_mul] at hceil
  -- both points outside would be at least as far apart as the ends of the interval
  simp only [holds_iff, Interval.ofPattern, Nat.add_mul, Nat.one_mul]
  generalize below * cell exponent count = point at *
  generalize cell exponent count = width at *
  omega

theorem exists_onGrid? (hpos : 0 < pattern)
    (hcell : cell exponent count <
      (unitsOf (pattern + 1) - unitsOf (pattern - 1)) * parts exponent count) :
    ∃ point, onGrid? pattern exponent count = some point := by
  have hholds := holds_below_or_above hpos hcell
  unfold cell parts at hholds
  unfold onGrid?
  dsimp only at hholds ⊢
  split_ifs with hboth hnear hlower hupper
  · exact ⟨_, rfl⟩
  · exact ⟨_, rfl⟩
  · exact ⟨_, rfl⟩
  · exact ⟨_, rfl⟩
  · exact absurd hholds (not_or.mpr ⟨hlower, hupper⟩)

/-! ## Seventeen digits -/

theorem pow_ten_mul (m n : Nat) : Nat.pow 10 m * Nat.pow 10 n = Nat.pow 10 (m + n) :=
  (Nat.pow_add 10 m n).symm

theorem length_digits_pos (n : Nat) : 0 < (Decimal.digits n).length :=
  List.length_pos_iff.mpr Nat.toDigits_ne_nil

/-- A number has as many digits as powers of ten up to it. -/
theorem pow_length_le {n : Nat} (hpos : 0 < n) :
    Nat.pow 10 ((Decimal.digits n).length - 1) ≤ n := by
  by_contra hlt
  rcases Nat.eq_zero_or_pos ((Decimal.digits n).length - 1) with hone | hmore
  · rw [hone] at hlt
    exact hlt hpos
  · have hlength := (Nat.length_toDigits_le_iff (by decide) hmore).mpr (Nat.lt_of_not_le hlt)
    exact absurd hlength (Nat.not_le.mpr (Nat.sub_one_lt (length_digits_pos n).ne'))

/-- The exponent is no larger than that of the number. -/
theorem exists_exponentOf {units : Nat} (hpos : 0 < units) : ∃ length : Nat, 0 < length ∧
    exponentOf units = length - 400 ∧
      unit * Nat.pow 10 (length - 1) ≤ units * Nat.pow 10 400 := by
  have hunit : unit ≤ Nat.pow 10 400 := by decide +kernel
  have hquotient : 0 < units * Nat.pow 10 400 / unit :=
    Nat.div_pos (hunit.trans (Nat.le_mul_of_pos_left _ hpos)) unit_pos
  refine ⟨_, length_digits_pos (units * Nat.pow 10 400 / unit), rfl, ?_⟩
  have hle := (Nat.le_div_iff_mul_le unit_pos).mp (pow_length_le hquotient)
  rwa [Nat.mul_comm] at hle

theorem mul_pow_lt {one units gap low high places all : Nat} (hall : low + high = all)
    (hle : one * Nat.pow 10 places ≤ units * Nat.pow 10 high)
    (hgap : 2 * units < Nat.pow 10 low * gap) :
    2 * one * Nat.pow 10 places < gap * Nat.pow 10 all := by
  calc 2 * one * Nat.pow 10 places = 2 * (one * Nat.pow 10 places) := by rw [Nat.mul_assoc]
    _ ≤ 2 * (units * Nat.pow 10 high) := Nat.mul_le_mul_left 2 hle
    _ = 2 * units * Nat.pow 10 high := (Nat.mul_assoc ..).symm
    _ < Nat.pow 10 low * gap * Nat.pow 10 high :=
        Nat.mul_lt_mul_of_pos_right hgap (Nat.pow_pos (by decide))
    _ = gap * Nat.pow 10 all := by
        rw [Nat.mul_comm (Nat.pow 10 low), Nat.mul_assoc, pow_ten_mul, hall]

/-- With seventeen digits the cells are smaller than the interval. -/
theorem cell_lt_gap (hpos : 0 < pattern) :
    cell (exponentOf (unitsOf pattern)) maxDigits <
      (unitsOf (pattern + 1) - unitsOf (pattern - 1)) *
        parts (exponentOf (unitsOf pattern)) maxDigits := by
  have hunits : 0 < unitsOf pattern := unitsOf_zero ▸ unitsOf_strictMono hpos
  obtain ⟨length, hlength, hexponent, hle⟩ := exists_exponentOf hunits
  have hgap := lt_gap hpos
  have hup : (exponentOf (unitsOf pattern) - maxDigits).toNat = length - 417 := by
    rw [hexponent, maxDigits]
    omega
  have hdown : (maxDigits - exponentOf (unitsOf pattern)).toNat = 417 - length := by
    rw [hexponent, maxDigits]
    omega
  rw [cell, parts, hup, hdown]
  generalize unitsOf (pattern + 1) - unitsOf (pattern - 1) = gap at hgap ⊢
  generalize unitsOf pattern = units at hle hgap
  generalize unit = one at hle ⊢
  generalize hhigh : 400 = high at hle
  -- a power of ten that both sides have in common
  obtain ⟨shared, hleft, hright⟩ : ∃ shared, length - 1 = length - 417 + shared ∧
      16 + high = 417 - length + shared := ⟨min length 417 - 1, by omega, by omega⟩
  have hlt := mul_pow_lt hright hle hgap
  rw [hleft, ← pow_ten_mul, ← pow_ten_mul, ← Nat.mul_assoc, ← Nat.mul_assoc] at hlt
  exact Nat.lt_of_mul_lt_mul_right hlt

/-- The search ends with a point that is rounded to the pattern. Its decimal has the digits of
the point without the zeros behind them. -/
theorem exists_point (hpos : 0 < pattern) : ∃ count point,
    onGrid? pattern (exponentOf (unitsOf pattern)) count = some point ∧
      ofPattern pattern = {
        digits := (Decimal.digits point).rdropWhile (· == '0')
        exponent := exponentOf (unitsOf pattern) + (Decimal.digits point).length - count } := by
  obtain ⟨last, hlast⟩ := exists_onGrid? hpos (cell_lt_gap hpos)
  unfold ofPattern
  dsimp only
  cases hfound : (List.range' 1 maxDigits).findSome? fun count =>
      (onGrid? pattern (exponentOf (unitsOf pattern)) count).map fun point => (count, point) with
  | none =>
      have hnone := List.findSome?_eq_none_iff.mp hfound maxDigits (by decide)
      rw [hlast] at hnone
      cases hnone
  | some found =>
      obtain ⟨count, point⟩ := found
      obtain ⟨_, -, hcount⟩ := List.exists_of_findSome?_eq_some hfound
      obtain ⟨point', hpoint, hpair⟩ := Option.map_eq_some_iff.mp hcount
      cases hpair
      exact ⟨count, point, hpoint, rfl⟩

end TimingReport.Decimal.Shortest
