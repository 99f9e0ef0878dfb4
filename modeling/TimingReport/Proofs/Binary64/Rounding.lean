import TimingReport.Proofs.Binary64.Exact

/-!
# Rounding keeps order

A quotient is rounded to a multiple of a power of two that leaves it 53 significant bits.
Rounding therefore keeps the order of quotients, and it leaves binary64 numbers as they are.
From these two facts a result is bounded by every binary64 number that bounds the exact one.
-/

namespace TimingReport.Binary64

/-! ## Whole numbers -/

/-- Rounding never falls below the whole part. -/
theorem div_le_roundHalfEven (num den : Nat) : num / den ≤ roundHalfEven num den := by
  unfold roundHalfEven
  dsimp only
  split
  · exact Nat.le_refl _
  · split <;> omega

/-- A bound of the rounded quotient is one of the quotient, up to a half; exactly a half is
rounded to the even neighbour. -/
theorem roundHalfEven_le_iff {num den m : Nat} (hden : 0 < den) :
    roundHalfEven num den ≤ m ↔
      2 * num < (2 * m + 1) * den ∨ 2 * num = (2 * m + 1) * den ∧ m % 2 = 0 := by
  have hquotient := Nat.div_add_mod num den
  have hrest := Nat.mod_lt num hden
  have hlow := div_le_roundHalfEven num den
  have hhigh := roundHalfEven_le num den
  have hodd : (2 * m + 1) * den = 2 * (den * m) + den := by ring
  rcases Nat.lt_trichotomy m (num / den) with hm | hm | hm
  · have hmul : den * (m + 1) ≤ den * (num / den) := Nat.mul_le_mul_left den hm
    rw [Nat.mul_succ] at hmul
    omega
  · rw [hodd, hm]
    unfold roundHalfEven
    dsimp only
    split
    · omega
    · split <;> omega
  · have hmul : den * (num / den + 1) ≤ den * m := Nat.mul_le_mul_left den hm
    rw [Nat.mul_succ] at hmul
    omega

variable {num den otherNum otherDen : Nat}

/-- Greater quotients are not rounded to less. -/
theorem roundHalfEven_mono (hden : 0 < den) (hother : 0 < otherDen)
    (hle : num * otherDen ≤ otherNum * den) :
    roundHalfEven num den ≤ roundHalfEven otherNum otherDen := by
  generalize hm : roundHalfEven otherNum otherDen = m
  rw [roundHalfEven_le_iff hden]
  have hdouble : 2 * num * otherDen ≤ 2 * otherNum * den := by
    rw [Nat.mul_assoc, Nat.mul_assoc]
    exact Nat.mul_le_mul_left 2 hle
  have hswap : (2 * m + 1) * otherDen * den = (2 * m + 1) * den * otherDen :=
    Nat.mul_right_comm ..
  rcases (roundHalfEven_le_iff hother).mp hm.le with hbelow | ⟨heq, heven⟩
  · left
    have hlt : 2 * otherNum * den < (2 * m + 1) * otherDen * den :=
      Nat.mul_lt_mul_of_pos_right hbelow hden
    exact Nat.lt_of_mul_lt_mul_right (a := otherDen) (by omega)
  · rw [heq, hswap] at hdouble
    have hhalf : 2 * num ≤ (2 * m + 1) * den := Nat.le_of_mul_le_mul_right hdouble hother
    exact (Nat.lt_or_eq_of_le hhalf).imp id fun htie => ⟨htie, heven⟩

/-! ## Steps of a power of two -/

/-- A quotient is rounded to a multiple of two to this power. -/
def shift (num den : Nat) : Nat := (num / den).log2 - 52

/-- The number of steps that a quotient is rounded to. -/
def steps (num den : Nat) : Nat := roundHalfEven num (den * Nat.pow 2 (shift num den))

theorem nearest_eq (num den : Nat) :
    nearest num den = min (shift num den * octave + steps num den) infinity := rfl

/-- A quotient has fewer steps than two octaves. -/
theorem lt_shift (num : Nat) (hden : 0 < den) :
    num < 2 * octave * (den * Nat.pow 2 (shift num den)) := by
  have hlog : num / den < Nat.pow 2 (52 + shift num den + 1) := by
    refine Nat.lt_of_lt_of_le Nat.lt_log2_self (Nat.pow_le_pow_right (by decide) ?_)
    unfold shift
    omega
  have hpow : Nat.pow 2 (52 + shift num den + 1) = 2 * octave * Nat.pow 2 (shift num den) := by
    rw [← two_mul_pow, ← octave_mul_pow, Nat.mul_assoc]
  have hlt := (Nat.div_lt_iff_lt_mul hden).mp hlog
  rwa [hpow, Nat.mul_assoc, Nat.mul_comm _ den] at hlt

/-- Where the steps are wide, a quotient has at least an octave of them. -/
theorem shift_le (hshift : 0 < shift num den) :
    octave * (den * Nat.pow 2 (shift num den)) ≤ num := by
  have hlog : (num / den).log2 = 52 + shift num den := by
    unfold shift at hshift ⊢
    omega
  have hne : num / den ≠ 0 := by
    intro hzero
    rw [hzero, Nat.log2_zero] at hlog
    omega
  have hle : Nat.pow 2 (52 + shift num den) ≤ num / den := hlog ▸ Nat.log2_self_le hne
  have hmul := (Nat.mul_le_mul_right den hle).trans (Nat.div_mul_le_self num den)
  rwa [← octave_mul_pow, Nat.mul_assoc, Nat.mul_comm _ den] at hmul

theorem pos_step (num : Nat) (hden : 0 < den) : 0 < den * Nat.pow 2 (shift num den) :=
  Nat.mul_pos hden (Nat.two_pow_pos _)

/-- A quotient is rounded to at most two octaves of steps. -/
theorem steps_le (num : Nat) (hden : 0 < den) : steps num den ≤ 2 * octave := by
  have hlt : num / (den * Nat.pow 2 (shift num den)) < 2 * octave :=
    (Nat.div_lt_iff_lt_mul (pos_step num hden)).mpr (lt_shift num hden)
  have hround := roundHalfEven_le num (den * Nat.pow 2 (shift num den))
  unfold steps
  omega

/-- Where the steps are wide, a quotient is rounded to at least an octave of them. -/
theorem octave_le_steps (hden : 0 < den) (hshift : 0 < shift num den) :
    octave ≤ steps num den := by
  have hle : octave ≤ num / (den * Nat.pow 2 (shift num den)) :=
    (Nat.le_div_iff_mul_le (pos_step num hden)).mpr (shift_le hshift)
  exact hle.trans (div_le_roundHalfEven _ _)

/-! ## Patterns -/

/-- A pattern counts its steps within its octave. -/
theorem unitsOf_add {k q : Nat} (hq : octave ≤ q ∨ k = 0) (hle : q ≤ 2 * octave) :
    unitsOf (k * octave + q) = q * Nat.pow 2 k := by
  by_cases hlt : q < 2 * octave
  · have hscale : scale (k * octave + q) = k := by
      simp only [scale, octave] at *
      omega
    rw [unitsOf, hscale, Nat.add_sub_cancel_left]
  · -- a carry: the next pattern with a step twice as wide
    have hq : q = 2 * octave := by omega
    have hscale : scale (k * octave + q) = k + 1 := by
      simp only [scale, octave] at *
      omega
    have hpattern : k * octave + q - (k + 1) * octave = octave := by
      rw [hq, Nat.add_mul]
      omega
    rw [unitsOf, hscale, hpattern, hq, Nat.mul_comm 2, Nat.mul_assoc, two_mul_pow]

/-- Every pattern is a count of steps at some scale. -/
theorem exists_steps (pattern : Nat) : ∃ k q, pattern = k * octave + q ∧
    (octave ≤ q ∨ k = 0) ∧ q < 2 * octave := by
  refine ⟨scale pattern, pattern - scale pattern * octave, ?_⟩
  simp only [scale, octave]
  omega

theorem unitsOf_zero : unitsOf 0 = 0 := by decide

@[simp] theorem units_zero (negative : Bool) : (zero negative).units = 0 := unitsOf_zero

/-- The next pattern is a greater number. -/
theorem unitsOf_succ (pattern : Nat) : unitsOf pattern < unitsOf (pattern + 1) := by
  obtain ⟨k, q, rfl, hq, hlt⟩ := exists_steps pattern
  have hnext : octave ≤ q + 1 ∨ k = 0 := hq.imp Nat.le_succ_of_le id
  rw [unitsOf_add hq hlt.le, Nat.add_assoc, unitsOf_add hnext hlt]
  exact Nat.mul_lt_mul_of_pos_right (Nat.lt_succ_self q) (Nat.two_pow_pos k)

theorem unitsOf_strictMono : StrictMono unitsOf := strictMono_nat_of_lt_succ unitsOf_succ

/-- What a quotient is rounded to is its number of steps. -/
theorem unitsOf_nearest (hden : 0 < den) (hfinite : nearest num den < infinity) :
    unitsOf (nearest num den) = steps num den * Nat.pow 2 (shift num den) := by
  have hpattern : nearest num den = shift num den * octave + steps num den := by
    rw [nearest_eq] at hfinite ⊢
    omega
  rw [hpattern]
  refine unitsOf_add ?_ (steps_le num hden)
  exact (Nat.eq_zero_or_pos _).symm.imp (octave_le_steps hden) id

/-! ## Order -/

theorem log2_mono {m n : Nat} (hle : m ≤ n) : m.log2 ≤ n.log2 := by
  by_cases hm : m = 0
  · rw [hm, Nat.log2_zero]
    exact Nat.zero_le _
  · have hn : n ≠ 0 := by omega
    by_contra hlt
    have hbelow : n < Nat.pow 2 m.log2 := (Nat.log2_lt hn).mp (by omega)
    exact absurd (hbelow.trans_le (Nat.log2_self_le hm)) (by omega)

/-- Greater quotients do not have narrower steps. -/
theorem shift_mono (hden : 0 < den) (hother : 0 < otherDen)
    (hle : num * otherDen ≤ otherNum * den) : shift num den ≤ shift otherNum otherDen := by
  have hquotient : num / den ≤ otherNum / otherDen := by
    rw [Nat.le_div_iff_mul_le hother]
    refine Nat.le_of_mul_le_mul_right (Nat.le_trans ?_ hle) hden
    rw [Nat.mul_right_comm]
    exact Nat.mul_le_mul_right otherDen (Nat.div_mul_le_self num den)
  exact Nat.sub_le_sub_right (log2_mono hquotient) 52

/-- A larger quotient is not rounded to a smaller number. -/
theorem nearest_mono (hden : 0 < den) (hother : 0 < otherDen)
    (hle : num * otherDen ≤ otherNum * den) : nearest num den ≤ nearest otherNum otherDen := by
  rw [nearest_eq, nearest_eq]
  suffices hpattern : shift num den * octave + steps num den ≤
      shift otherNum otherDen * octave + steps otherNum otherDen by omega
  rcases (shift_mono hden hother hle).lt_or_eq with hlt | heq
  · -- at a larger scale there are at least as many steps as at the end of a smaller one
    have hlow := steps_le num hden
    have hhigh := octave_le_steps hother (Nat.lt_of_le_of_lt (Nat.zero_le _) hlt)
    have hscale : (shift num den + 1) * octave ≤ shift otherNum otherDen * octave :=
      Nat.mul_le_mul_right octave hlt
    rw [Nat.succ_mul] at hscale
    omega
  · rw [heq, Nat.add_le_add_iff_left]
    unfold steps
    rw [heq]
    refine roundHalfEven_mono (heq ▸ pos_step num hden) (pos_step otherNum hother) ?_
    rw [← Nat.mul_assoc, ← Nat.mul_assoc]
    exact Nat.mul_le_mul_right _ hle

/-- What can be represented is not rounded. -/
theorem nearest_unitsOf (pattern : Nat) : nearest (unitsOf pattern) 1 = min pattern infinity := by
  obtain ⟨k, q, rfl, hq, hlt⟩ := exists_steps pattern
  rw [unitsOf_add hq hlt.le]
  rcases hq with hq | rfl
  · exact Normal.nearest_eq ⟨rfl, hq, hlt⟩
  · have hshift : shift (q * Nat.pow 2 0) 1 = 0 := by
      have hlog : q.log2 ≤ 52 := log2_le_of_lt hlt
      simp only [shift, Nat.pow_eq, Nat.pow_zero, Nat.mul_one, Nat.div_one]
      omega
    have hround := roundHalfEven_mul q Nat.one_pos
    rw [nearest_eq, steps, hshift]
    simpa using congrArg (min · infinity) hround

/-- A quotient that is a number is rounded to it, or to infinity. -/
theorem nearest_unitsOf_mul (pattern : Nat) (hden : 0 < den) :
    nearest (unitsOf pattern * den) den = min pattern infinity := by
  rw [← nearest_unitsOf pattern]
  simpa [Nat.mul_comm] using nearest_mul_mul hden (unitsOf pattern) 1

/-- A binary64 number that bounds a quotient bounds what the quotient is rounded to. -/
theorem nearest_le_of_le {pattern : Nat} (hden : 0 < den) (hle : num ≤ unitsOf pattern * den) :
    nearest num den ≤ pattern := by
  have hmono : nearest num den ≤ nearest (unitsOf pattern * den) den :=
    nearest_mono hden hden (Nat.mul_le_mul_right den hle)
  rw [nearest_unitsOf_mul pattern hden] at hmono
  exact hmono.trans (Nat.min_le_left _ _)

/-- A quotient that is at least a number is not rounded below it. -/
theorem le_nearest_of_le {pattern : Nat} (hden : 0 < den) (hfinite : pattern ≤ infinity)
    (hle : unitsOf pattern * den ≤ num) : pattern ≤ nearest num den := by
  have hmono : nearest (unitsOf pattern * den) den ≤ nearest num den :=
    nearest_mono hden hden (Nat.mul_le_mul_right den hle)
  rwa [nearest_unitsOf_mul pattern hden, Nat.min_eq_left hfinite] at hmono

/-- A count that is not zero is at least one, also when it is rounded. -/
theorem unit_le_units_ofNat {n : Nat} (hn : 0 < n) : unit ≤ (ofNat n).units := by
  have hone : (ofNat 1).units = unit := by
    rw [units_ofNat (by decide), Nat.one_mul]
  rw [← hone]
  refine unitsOf_strictMono.monotone (nearest_mono Nat.one_pos Nat.one_pos ?_)
  exact Nat.mul_le_mul_right 1 (Nat.mul_le_mul_right unit hn)

/-- What is one or more is not zero. -/
theorem magnitude_ne_zero {x : Binary64} (hx : unit ≤ x.units) : x.magnitude ≠ 0 := by
  intro hzero
  rw [units, hzero, unitsOf_zero] at hx
  exact absurd unit_pos (Nat.not_lt.mpr hx)

end TimingReport.Binary64
