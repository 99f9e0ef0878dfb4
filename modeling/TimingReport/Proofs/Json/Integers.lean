import TimingReport.Proofs.Binary64.Rounding
import TimingReport.Proofs.Json.Writing

/-!
# Whole numbers with a sign

A whole number whose digits can be counted is read as itself. A negative one may have more
digits and be rounded, but whatever it is read as has a sign and is one or more in magnitude,
and so are its products with whole numbers.
-/

namespace TimingReport

/-! ## Magnitudes of one or more -/

namespace Binary64

/-- A number that is at least one in magnitude. -/
structure FromOne (x : Binary64) : Prop where
  number : x.isNaN = false
  le : unit ≤ x.units

variable {x y : Binary64}

theorem negative_neg (x : Binary64) : (-x).negative = !x.negative := rfl

theorem FromOne.neg (hx : x.FromOne) : (-x).FromOne := ⟨hx.number, hx.le⟩

theorem fromOne_infinite (negative : Bool) : (infinite negative).FromOne where
  number := decide_eq_false (Nat.lt_irrefl infinity)
  le := by
    have hle : (ofNat 1).magnitude ≤ infinity := Nat.min_le_right _ _
    exact (unit_le_units_ofNat Nat.one_pos).trans (unitsOf_strictMono.monotone hle)

theorem fromOne_ofUnits (negative : Bool) {num den : Nat} (hden : 0 < den)
    (hle : unit * den ≤ num) : (ofUnits negative num den).FromOne where
  number := decide_eq_false (Nat.not_lt.mpr (Nat.min_le_right _ _))
  le := by
    have hone : nearest (1 * unit) 1 ≤ nearest num den :=
      nearest_mono Nat.one_pos hden (by rwa [Nat.one_mul, Nat.mul_one])
    exact (unit_le_units_ofNat Nat.one_pos).trans (unitsOf_strictMono.monotone hone)

theorem fromOne_ofNat {n : Nat} (hn : 0 < n) : (ofNat n).FromOne := by
  refine fromOne_ofUnits false Nat.one_pos ?_
  rw [Nat.mul_one]
  exact Nat.le_mul_of_pos_left unit hn

/-- A product keeps the signs of its factors, and it does not fall below one. -/
theorem FromOne.mul (hx : x.FromOne) (hy : y.FromOne) :
    (x * y).FromOne ∧ (x * y).negative = (x.negative != y.negative) := by
  change (Binary64.mul x y).FromOne ∧ (Binary64.mul x y).negative = _
  have hzero : (x.magnitude == 0 || y.magnitude == 0) = false := by
    simp [magnitude_ne_zero hx.le, magnitude_ne_zero hy.le]
  simp only [Binary64.mul, hx.number, hy.number, hzero, Bool.or_self, Bool.false_eq_true, if_false]
  split
  next => exact ⟨fromOne_infinite _, rfl⟩
  next => exact ⟨fromOne_ofUnits _ unit_pos (Nat.mul_le_mul hx.le hy.le), rfl⟩

end Binary64

namespace Json

/-! ## Numbers with a sign -/

namespace Write

/-- A whole number, with a sign if it is negative. -/
def integer : Int → List Char
  | .ofNat n => natural n
  | .negSucc n => '-' :: natural (n + 1)

end Write

theorem value_integer (n : Int) : Value ((Write.integer n).map some) := by
  cases n with
  | ofNat n => exact .unsigned (unsigned_natural n)
  | negSucc n => exact .negative (unsigned_natural (n + 1))

theorem le_maxCount_of_isDigit {s : Option Char} (hs : isDigit s) : digitValue s ≤ maxCount := by
  cases s with
  | none => contradiction
  | some c =>
      have hnine : c.toNat ≤ '9'.toNat := by
        simp only [isDigit, Char.isDigit, Bool.and_eq_true, decide_eq_true_eq] at hs
        exact hs.2
      have hle : digitValue (some c) ≤ 9 := Nat.sub_le_sub_right hnine '0'.toNat
      exact hle.trans (by decide)

/-- The digits of a number other than zero are not gathered to zero. -/
theorem pos_gather {count : Nat} {digits : List Nat} (hdigits : ∀ d ∈ digits, d ≤ maxCount)
    (hpos : 0 < digits.foldl (fun n d => n * 10 + d) count) : 0 < (gather count digits).1 := by
  induction digits generalizing count with
  | nil => exact hpos
  | cons d digits ih =>
      obtain ⟨hd, hdigits⟩ := List.forall_mem_cons.mp hdigits
      rw [gather]
      split
      next hfull =>
        -- a digit alone does not fill the count
        show 0 < count
        omega
      next => exact ih hdigits hpos

theorem fromOne_of_scaled {count n : Nat} (hcount : 0 < count) {x : Binary64}
    (hscaled : scaled count n = .ok x) : x.FromOne ∧ x.negative = false := by
  have hone := Binary64.fromOne_ofNat hcount
  have hpower : (Binary64.ofNat (Nat.pow 10 n)).FromOne :=
    Binary64.fromOne_ofNat (Nat.pow_pos (by decide))
  have hnonneg : (0 : Int) ≤ n := Int.natCast_nonneg n
  have hzero : ((Binary64.ofNat count).magnitude == 0) = false :=
    beq_eq_false_iff_ne.mpr (Binary64.magnitude_ne_zero hone.le)
  simp only [scaled, hnonneg, if_true, hzero, Bool.false_eq_true, if_false,
    Int.toNat_natCast] at hscaled
  split at hscaled
  next => contradiction
  next =>
    split at hscaled
    next => contradiction
    next =>
      obtain rfl := Except.ok.inj hscaled
      exact hone.mul hpower

/-- What the rest of a negative number is read as, when it has no point and no exponent. -/
theorem readTail_negative {count dropped : Nat} (hcount : 0 < count) {rest left : Symbols}
    (hrest : Ends rest) {number : Number}
    (hread : readTail false count dropped rest = .ok (number, left)) :
    ∃ x : Binary64, x.FromOne ∧ x.negative = false ∧ number.toReal = -x := by
  rw [readTail_ends false count dropped hrest] at hread
  split at hread
  next =>
    obtain ⟨rfl, -⟩ := Prod.mk.inj (Except.ok.inj hread)
    refine ⟨.ofNat count, Binary64.fromOne_ofNat hcount, rfl, ?_⟩
    simp only [wholeNumber, Bool.false_eq_true, if_false]
    split
    next =>
      have hnegative : -(count : Int) < 0 := by omega
      rw [Number.toReal, if_pos hnegative, Int.natAbs_neg, Int.natAbs_natCast]
    next => rfl
  next =>
    obtain ⟨x, hscaled, hx⟩ := Outcome.map_eq_ok_iff.mp hread
    obtain ⟨rfl, -⟩ := Prod.mk.inj hx
    obtain ⟨hone, hsign⟩ := fromOne_of_scaled hcount hscaled
    exact ⟨x, hone, hsign, rfl⟩

theorem readUnsigned_negative {whole : Symbols} (hwhole : Whole whole)
    (hpos : 0 < (whole.map digitValue).foldl (fun n d => n * 10 + d) 0) {rest left : Symbols}
    (hrest : Ends rest) {number : Number}
    (hread : readUnsigned false (whole ++ rest) = .ok (number, left)) :
    ∃ x : Binary64, x.FromOne ∧ x.negative = false ∧ number.toReal = -x := by
  cases hwhole with
  | zero => exact absurd hpos (by decide)
  | digits hfirst hdigits =>
      rw [List.cons_append, readUnsigned_digits hfirst hdigits hrest.noDigit] at hread
      refine readTail_negative (pos_gather ?_ hpos) hrest hread
      exact List.forall_mem_map.mpr fun s hs => le_maxCount_of_isDigit (hdigits.2 s hs)

/-- A negative whole number of any length is read as a number below zero, if it is read. -/
theorem reads_real_negative {n : Nat} (hn : 0 < n) {x : Binary64}
    (hreads : Reads real (('-' :: Write.natural n).map some) x) :
    ∃ y : Binary64, y.FromOne ∧ y.negative = false ∧ x = -y := by
  have hread := hreads [] ends_nil
  rw [real_eq] at hread
  obtain ⟨⟨number, rest⟩, hnumber, hx⟩ := Outcome.map_eq_ok_iff.mp hread
  obtain ⟨rfl, rfl⟩ := Prod.mk.inj hx
  have hunsigned : readUnsigned false ((Decimal.digits n).map some ++ []) = .ok (number, []) :=
    hnumber
  rw [← foldl_digitValue_digits n] at hn
  exact readUnsigned_negative (whole_digits n) hn ends_nil hunsigned

end Json

end TimingReport
