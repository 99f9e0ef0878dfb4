import TimingReport.Proofs.Binary64.Rounding
import TimingReport.Proofs.Binary64.TotalOrder

/-!
# Comparison as numbers

A pattern that is not a number is comparable with nothing. All others stand in one order in
which the two zeros are the same, and which the total order of patterns refines.
-/

namespace TimingReport.Binary64

variable {x y z : Binary64}

protected theorem le_iff : x.le y ↔ ¬x.isNaN ∧ ¬y.isNaN ∧ x.place ≤ y.place := by
  simp [le, and_assoc]

protected theorem lt_iff : x.lt y ↔ ¬x.isNaN ∧ ¬y.isNaN ∧ x.place < y.place := by
  simp [lt, and_assoc]

protected theorem le_trans (hxy : x.le y) (hyz : y.le z) : x.le z := by
  obtain ⟨hx, -, hxy⟩ := Binary64.le_iff.mp hxy
  obtain ⟨-, hz, hyz⟩ := Binary64.le_iff.mp hyz
  exact Binary64.le_iff.mpr ⟨hx, hz, hxy.trans hyz⟩

protected theorem lt_of_le_of_lt (hxy : x.le y) (hyz : y.lt z) : x.lt z := by
  obtain ⟨hx, -, hxy⟩ := Binary64.le_iff.mp hxy
  obtain ⟨-, hz, hyz⟩ := Binary64.lt_iff.mp hyz
  exact Binary64.lt_iff.mpr ⟨hx, hz, hxy.trans_lt hyz⟩

protected theorem not_lt_iff (hx : ¬x.isNaN) (hy : ¬y.isNaN) : ¬x.lt y ↔ y.le x := by
  simp [Binary64.lt_iff, Binary64.le_iff, hx, hy]

/-- Sorted patterns ascend as numbers, if they are some. -/
theorem le_of_totalLe (hx : ¬x.isNaN) (hy : ¬y.isNaN) (hle : x.totalLe y) : x.le y := by
  have hplace := totalLe_iff.mp hle
  refine Binary64.le_iff.mpr ⟨hx, hy, ?_⟩
  cases hnegative : x.negative <;> cases hother : y.negative <;>
  · simp only [totalPlace, place, hnegative, hother, Bool.false_eq_true, if_true, if_false]
      at hplace ⊢
    omega

/-! ## Whole numbers -/

theorem not_isNaN_ofNat (n : Nat) : ¬(ofNat n).isNaN := by
  have hle : (ofNat n).magnitude ≤ infinity := Nat.min_le_right _ _
  simpa [isNaN] using hle

theorem ofNat_le_ofNat {m n : Nat} (hle : m ≤ n) : (ofNat m).le (ofNat n) := by
  have hnearest : nearest (m * unit) 1 ≤ nearest (n * unit) 1 :=
    nearest_mono Nat.one_pos Nat.one_pos (Nat.mul_le_mul_right 1 (Nat.mul_le_mul_right unit hle))
  refine Binary64.le_iff.mpr ⟨not_isNaN_ofNat m, not_isNaN_ofNat n, ?_⟩
  simpa [place, ofNat, ofUnits] using hnearest

/-- Whole numbers that are not rounded are compared as they are. -/
theorem ofNat_le_ofNat_iff {m n : Nat} (hm : m ≤ maxWhole) (hn : n ≤ maxWhole) :
    (ofNat m).le (ofNat n) ↔ m ≤ n := by
  refine ⟨fun hle => ?_, ofNat_le_ofNat⟩
  have hmagnitude : (ofNat m).magnitude ≤ (ofNat n).magnitude := by
    simpa [place, ofNat, ofUnits] using (Binary64.le_iff.mp hle).2.2
  have hunits : (ofNat m).units ≤ (ofNat n).units := unitsOf_strictMono.monotone hmagnitude
  rw [units_ofNat hm, units_ofNat hn] at hunits
  exact Nat.le_of_mul_le_mul_right hunits unit_pos

end TimingReport.Binary64
