import TimingReport.Binary64

/-!
# The total order of binary64 patterns

Comparison by place is a total order in which no two patterns are equal: the signed
zeros and the patterns that are not a number have places of their own.
-/

namespace TimingReport.Binary64

/-- Every pattern has a place of its own. -/
theorem totalPlace_injective {x y : Binary64} (hplace : x.totalPlace = y.totalPlace) :
    x = y := by
  obtain ⟨negative, magnitude, _⟩ := x
  obtain ⟨otherNegative, otherMagnitude, _⟩ := y
  have hsame : negative = otherNegative ∧ magnitude = otherMagnitude := by
    cases negative <;> cases otherNegative <;> simp [totalPlace] at hplace ⊢ <;> omega
  obtain ⟨rfl, rfl⟩ := hsame
  rfl

theorem totalLe_iff {x y : Binary64} : x.totalLe y ↔ x.totalPlace ≤ y.totalPlace := by
  simp [totalLe]

theorem totalLe_refl (x : Binary64) : x.totalLe x := totalLe_iff.mpr (Int.le_refl _)

theorem totalLe_trans {x y z : Binary64} (hxy : x.totalLe y) (hyz : y.totalLe z) :
    x.totalLe z :=
  totalLe_iff.mpr (Int.le_trans (totalLe_iff.mp hxy) (totalLe_iff.mp hyz))

theorem totalLe_total (x y : Binary64) : x.totalLe y || y.totalLe x := by
  rw [Bool.or_eq_true, totalLe_iff, totalLe_iff]
  exact Int.le_total _ _

theorem totalLe_antisymm {x y : Binary64} (hxy : x.totalLe y) (hyx : y.totalLe x) : x = y :=
  totalPlace_injective (Int.le_antisymm (totalLe_iff.mp hxy) (totalLe_iff.mp hyx))

/-- The pattern comes before the other one. -/
def totalLt (x y : Binary64) : Bool := x.totalPlace < y.totalPlace

theorem totalLt_iff {x y : Binary64} : x.totalLt y ↔ x.totalPlace < y.totalPlace := by
  simp [totalLt]

theorem not_totalLt_iff {x y : Binary64} : ¬x.totalLt y ↔ y.totalLe x := by
  rw [totalLt_iff, totalLe_iff, Int.not_lt]

/-! ## Bits -/

theorem toNat_toBits (x : Binary64) :
    x.toBits.toNat = (if x.negative then signBit else 0) + x.magnitude := by
  have hlt := x.magnitude_lt
  simp only [toBits, UInt64.toNat_ofNat']
  apply Nat.mod_eq_of_lt
  simp only [signBit] at hlt ⊢
  split <;> omega

/-- The bits determine the number, the sign of a zero and the payload of a pattern that is
not a number included. -/
theorem toBits_inj {x y : Binary64} : x.toBits = y.toBits ↔ x = y := by
  constructor
  · intro hbits
    have hnat := congrArg UInt64.toNat hbits
    rw [toNat_toBits, toNat_toBits] at hnat
    have hx := x.magnitude_lt
    have hy := y.magnitude_lt
    apply totalPlace_injective
    -- both magnitudes are below the sign bit, so equal bits have equal signs
    cases hnegative : x.negative <;> cases hother : y.negative <;>
    · simp only [totalPlace, hnegative, hother, Bool.false_eq_true, if_true, if_false]
        at hnat ⊢
      omega
  · exact congrArg toBits

end TimingReport.Binary64
