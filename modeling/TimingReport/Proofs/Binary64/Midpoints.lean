import TimingReport.Proofs.Binary64.Rounding

/-!
# Rounding between neighbours

Between two neighbouring numbers it is the midpoint that decides: what lies below it is rounded
down, what lies above it is rounded up, and the midpoint itself goes to the even pattern. So the
quotients that are rounded to a pattern lie between the midpoints to its two neighbours.
-/

namespace TimingReport.Binary64

variable {num den pattern : Nat}

/-- A quotient between a number and the next one is rounded to steps as wide as theirs. -/
theorem shift_eq {k q : Nat} (hden : 0 < den) (hq : octave ≤ q ∨ k = 0) (hlt : q < 2 * octave)
    (hlow : q * Nat.pow 2 k * den ≤ num) (hhigh : num < (q + 1) * Nat.pow 2 k * den) :
    shift num den = k := by
  have hbelow : q * Nat.pow 2 k ≤ num / den := (Nat.le_div_iff_mul_le hden).mpr hlow
  have habove : num / den < Nat.pow 2 (52 + k + 1) := by
    have hnext : (q + 1) * Nat.pow 2 k ≤ 2 * octave * Nat.pow 2 k :=
      Nat.mul_le_mul_right _ hlt
    rw [Nat.mul_assoc, octave_mul_pow, two_mul_pow] at hnext
    exact ((Nat.div_lt_iff_lt_mul hden).mpr hhigh).trans_le hnext
  have hle : (num / den).log2 ≤ 52 + k := log2_le_of_lt habove
  rcases hq with hq | rfl
  · have hoctave : Nat.pow 2 (52 + k) ≤ num / den := by
      rw [← octave_mul_pow]
      exact (Nat.mul_le_mul_right _ hq).trans hbelow
    have hne : num / den ≠ 0 := (Nat.lt_of_lt_of_le (Nat.two_pow_pos (52 + k)) hoctave).ne'
    have hlog : (num / den).log2 = 52 + k := (Nat.log2_eq_iff hne).mpr ⟨hoctave, habove⟩
    rw [shift, hlog, Nat.add_sub_cancel_left]
  · exact Nat.sub_eq_zero_of_le hle

/-- A quotient is rounded to at most a pattern if it lies below the midpoint to the next one, or
there and the pattern is even. -/
theorem nearest_le_iff (hden : 0 < den) (hfinite : pattern < infinity) :
    nearest num den ≤ pattern ↔
      2 * num < (unitsOf pattern + unitsOf (pattern + 1)) * den ∨
        2 * num = (unitsOf pattern + unitsOf (pattern + 1)) * den ∧ pattern % 2 = 0 := by
  have hgap : unitsOf pattern * den < unitsOf (pattern + 1) * den :=
    Nat.mul_lt_mul_of_pos_right (unitsOf_succ pattern) hden
  rw [Nat.add_mul]
  rcases Nat.lt_or_ge num (unitsOf pattern * den) with hbelow | hlow
  · exact iff_of_true (nearest_le_of_le hden hbelow.le) (.inl (by omega))
  rcases Nat.lt_or_ge num (unitsOf (pattern + 1) * den) with hhigh | habove
  swap
  · have hle : pattern + 1 ≤ nearest num den := le_nearest_of_le hden hfinite habove
    exact iff_of_false (by omega) (by omega)
  -- both neighbours are counts of the same steps, and so is what the quotient is rounded to
  obtain ⟨k, q, rfl, hq, hlt⟩ := exists_steps pattern
  have hunits := unitsOf_add hq hlt.le
  have hnext : unitsOf (k * octave + q + 1) = (q + 1) * Nat.pow 2 k := by
    rw [Nat.add_assoc]
    exact unitsOf_add (hq.imp Nat.le_succ_of_le id) hlt
  rw [hunits] at hlow
  rw [hnext] at hhigh
  have hshift : shift num den = k := shift_eq hden hq hlt hlow hhigh
  have hsum : q * Nat.pow 2 k * den + (q + 1) * Nat.pow 2 k * den =
      (2 * q + 1) * (den * Nat.pow 2 k) := by ring
  have hparity : (k * octave + q) % 2 = q % 2 := by
    have heven : octave % 2 = 0 := by decide
    rw [Nat.add_mod, Nat.mul_mod, heven, Nat.mul_zero, Nat.zero_mod, Nat.zero_add, Nat.mod_mod]
  have hsteps : nearest num den ≤ k * octave + q ↔
      roundHalfEven num (den * Nat.pow 2 k) ≤ q := by
    rw [nearest_eq, steps, hshift, min_le_iff, or_iff_left (Nat.not_le.mpr hfinite),
      Nat.add_le_add_iff_left]
  rw [hsteps, roundHalfEven_le_iff (hshift ▸ pos_step num hden), hunits, hnext, hsum, hparity]

/-- Quotients between the midpoints to both neighbours are rounded to the pattern, those on a
midpoint if it is even. -/
theorem nearest_eq_of_between (hden : 0 < den) (hpos : 0 < pattern) (hfinite : pattern < infinity)
    (hlow : (unitsOf pattern + unitsOf (pattern - 1)) * den < 2 * num ∨
      (unitsOf pattern + unitsOf (pattern - 1)) * den = 2 * num ∧ pattern % 2 = 0)
    (hhigh : 2 * num < (unitsOf pattern + unitsOf (pattern + 1)) * den ∨
      2 * num = (unitsOf pattern + unitsOf (pattern + 1)) * den ∧ pattern % 2 = 0) :
    nearest num den = pattern := by
  obtain ⟨before, rfl⟩ := Nat.exists_eq_add_one.mpr hpos
  have hle := (nearest_le_iff hden hfinite).mpr hhigh
  have hnot : ¬nearest num den ≤ before := by
    rw [nearest_le_iff hden (Nat.lt_of_succ_lt hfinite), Nat.add_comm (unitsOf before)]
    rw [Nat.add_sub_cancel] at hlow
    omega
  omega

/-- Equal quotients are rounded alike. -/
theorem nearest_congr {otherNum otherDen : Nat} (hden : 0 < den) (hother : 0 < otherDen)
    (heq : num * otherDen = otherNum * den) : nearest num den = nearest otherNum otherDen :=
  Nat.le_antisymm (nearest_mono hden hother heq.le) (nearest_mono hother hden heq.ge)

/-- The neighbours of a number lie two steps apart, or one and a half where the steps change. -/
theorem gap_eq (hpos : 0 < pattern) : ∃ q width, 0 < width ∧ q < 2 * octave ∧
    unitsOf pattern = q * width ∧
      (unitsOf (pattern + 1) - unitsOf (pattern - 1) = 2 * width ∨
        q = octave ∧ 2 * (unitsOf (pattern + 1) - unitsOf (pattern - 1)) = 3 * width) := by
  obtain ⟨k, q, rfl, hq, hlt⟩ := exists_steps pattern
  have hnext : unitsOf (k * octave + q + 1) = (q + 1) * Nat.pow 2 k := by
    rw [Nat.add_assoc]
    exact unitsOf_add (hq.imp Nat.le_succ_of_le id) hlt
  refine ⟨q, Nat.pow 2 k, Nat.two_pow_pos k, hlt, unitsOf_add hq hlt.le, ?_⟩
  rw [hnext]
  by_cases hinside : octave < q ∨ k = 0
  · left
    obtain ⟨before, rfl⟩ : ∃ before, q = before + 1 := by
      refine Nat.exists_eq_add_one.mpr (Nat.pos_of_ne_zero ?_)
      rintro rfl
      obtain rfl : k = 0 := hinside.resolve_left (Nat.not_lt_zero _)
      simp at hpos
    have hprevious : unitsOf (k * octave + (before + 1) - 1) = before * Nat.pow 2 k := by
      rw [← Nat.add_assoc, Nat.add_sub_cancel]
      exact unitsOf_add (hinside.imp Nat.le_of_lt_succ id) (Nat.le_of_succ_le hlt.le)
    have hcount : before + 1 + 1 - before = 2 := by omega
    rw [hprevious, ← Nat.sub_mul, hcount]
  · -- the number before is only half a step away
    right
    obtain ⟨hnot, hk⟩ := not_or.mp hinside
    obtain rfl : q = octave := Nat.le_antisymm (Nat.not_lt.mp hnot) (hq.resolve_right hk)
    obtain ⟨k, rfl⟩ := Nat.exists_eq_add_one.mpr (Nat.pos_of_ne_zero hk)
    have hprevious : unitsOf ((k + 1) * octave + octave - 1) =
        (2 * octave - 1) * Nat.pow 2 k := by
      have hone : 1 ≤ 2 * octave := by decide
      have hpattern : (k + 1) * octave + octave = k * octave + 2 * octave := by ring
      rw [hpattern, Nat.add_sub_assoc hone]
      exact unitsOf_add (.inl (by decide)) (Nat.sub_le _ _)
    refine ⟨rfl, ?_⟩
    rw [hprevious, ← two_mul_pow, ← Nat.mul_assoc, ← Nat.sub_mul]
    have hcount : (octave + 1) * 2 - (2 * octave - 1) = 3 := by decide
    rw [hcount]
    ring

/-- A step of the sixteenth decimal place is smaller than the distance of the neighbours. -/
theorem lt_gap (hpos : 0 < pattern) :
    2 * unitsOf pattern < Nat.pow 10 16 * (unitsOf (pattern + 1) - unitsOf (pattern - 1)) := by
  obtain ⟨q, width, hwidth, hq, hunits, hgap⟩ := gap_eq hpos
  have hoctave : 2 * octave < Nat.pow 10 16 := by decide
  rw [hunits]
  generalize unitsOf (pattern + 1) - unitsOf (pattern - 1) = gap at hgap ⊢
  generalize Nat.pow 10 16 = places at hoctave ⊢
  rcases hgap with rfl | ⟨rfl, hgap⟩
  · have hlt := Nat.mul_lt_mul_of_pos_right (hq.trans hoctave) hwidth
    rw [Nat.mul_left_comm places]
    omega
  · have hlt := Nat.mul_lt_mul_of_pos_right hoctave hwidth
    have hdouble : 2 * (places * gap) = 3 * (places * width) := by
      rw [Nat.mul_left_comm, hgap, Nat.mul_left_comm]
    rw [Nat.mul_assoc] at hlt
    omega

end TimingReport.Binary64
