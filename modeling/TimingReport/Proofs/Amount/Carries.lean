import TimingReport.Proofs.Amount.Thresholds

/-!
# Amounts at the end of a unit

The unit of an amount is found before its number is rounded. An amount that is less than a
threshold, but so close to it that its number is rounded up to a whole step, is shown as that
step in the smaller unit. This is the only quantity that is ever shown in two units.
-/

namespace TimingReport

open Binary64 Load

namespace Amount

variable {symbols : List String} {text : String} {tier other hundredths others : Nat}

/-! ## Numbers with a sign -/

/-- The text shows the count of hundredths, possibly behind a sign. -/
def Prints (symbols : List String) (text : String) (tier hundredths : Nat) : Prop :=
  Shows symbols text tier hundredths ∨
    ∃ unsigned, text = "-" ++ unsigned ∧ Shows symbols unsigned tier hundredths

/-- What is shown begins with a digit. -/
theorem Shows.not_signed (hshows : Shows symbols text tier hundredths) (unsigned : String) :
    text ≠ "-" ++ unsigned := by
  obtain ⟨_, symbol, ⟨whole, fraction, rfl, hdigits, -, hne, -⟩, -, rfl⟩ := hshows
  intro htext
  have hchars := congrArg String.toList htext
  cases whole with
  | nil => contradiction
  | cons c whole =>
      simp only [String.toList_append, String.toList_ofList, List.cons_append] at hchars
      obtain ⟨rfl, -⟩ := List.cons.inj hchars
      exact absurd (hdigits '-' List.mem_cons_self) (by decide)

/-- A text prints one count in one unit. -/
theorem Prints.unique (hsymbols : symbols.Nodup) (hprints : Prints symbols text tier hundredths)
    (hother : Prints symbols text other others) : tier = other ∧ hundredths = others := by
  rcases hprints with hshows | ⟨unsigned, htext, hshows⟩
  · rcases hother with hother | ⟨unsigned, htext, -⟩
    · exact hshows.unique hsymbols hother
    · exact absurd htext (hshows.not_signed unsigned)
  · rcases hother with hother | ⟨unsigned', htext', hother⟩
    · exact absurd htext (hother.not_signed unsigned)
    · obtain rfl : unsigned = unsigned' := by
        rw [htext] at htext'
        have hchars := congrArg String.toList htext'
        simp only [String.toList_append] at hchars
        exact String.toList_inj.mp (List.append_cancel_left hchars)
      exact hshows.unique hsymbols hother

variable {scale : Scale} {x y : Binary64}

theorem Scale.IsExact.prints_text (hscale : scale.IsExact) (hx : IsTiming x) :
    Prints scale.symbols (scale.text x) (scale.tier x)
      (Decimal.scaledUnits 2 (x / scale.divisor (scale.tier x))) := by
  have htier : scale.tier x ≤ scale.larger.length := scale.tierUpTo_le x _
  have hquotient := (hscale.isTiming_div hx htier).1.1
  have hshows := Scale.shows_pointed htier
    (Decimal.scaledUnits 2 (x / scale.divisor (scale.tier x)))
  cases hsign : (x / scale.divisor (scale.tier x)).negative
  · rw [Scale.text, Decimal.fixed_eq hquotient hsign]
    exact .inl hshows
  · right
    refine ⟨_, ?_, hshows⟩
    simp only [Scale.text, Decimal.fixed, isNaN_of_isFinite hquotient, hsign,
      Bool.false_eq_true, if_false, if_true, String.append_assoc]

/-! ## Steps -/

/-- In every unit but the last a timing is printed as at most a whole step, and as less unless
its quotient is at most half a hundredth away from the step. Two timings that are printed as the
same quantity in different units are printed as a whole step and as the next unit. -/
structure IsStepped (symbols : List String) (step : Nat) (text : Binary64 → String) : Prop where
  printed : ∀ x, IsTiming x → ∃ tier hundredths, Prints symbols (text x) tier hundredths
  bounded : ∀ x tier hundredths, IsTiming x → Prints symbols (text x) tier hundredths →
    tier + 1 < symbols.length → hundredths ≤ 100 * step ∧
      (hundredths < 100 * step ↔ (x / ofNat (step ^ tier)).value < step - 1 / 200)
  apart : ∀ x y tier other hundredths others, IsTiming x → IsTiming y →
    Prints symbols (text x) tier hundredths → Prints symbols (text y) other others →
    tier < other → hundredths * step ^ tier = others * step ^ other →
    other = tier + 1 ∧ hundredths = 100 * step ∧ others = 100

/-- A product with a whole power of the step leaves no room for another factor. -/
theorem eq_of_mul_pow_eq {step : Nat} (hstep : 1 < step) (hlt : tier < other)
    (hle : hundredths ≤ 100 * step) (hothers : 100 ≤ others)
    (heq : hundredths * step ^ tier = others * step ^ other) :
    other = tier + 1 ∧ hundredths = 100 * step ∧ others = 100 := by
  obtain ⟨d, rfl⟩ : ∃ d, other = tier + 1 + d := ⟨other - (tier + 1), by omega⟩
  have hpos : 0 < step ^ tier := Nat.pow_pos (by omega)
  have hcancel : hundredths = others * step ^ d * step := by
    refine Nat.eq_of_mul_eq_mul_right hpos ?_
    rw [heq]
    ring
  have hbound : others * step ^ d ≤ 100 := by
    refine Nat.le_of_mul_le_mul_right ?_ (Nat.zero_lt_of_lt hstep)
    rwa [← hcancel]
  cases d with
  | zero =>
      rw [pow_zero, Nat.mul_one] at hcancel hbound
      obtain rfl : others = 100 := Nat.le_antisymm hbound hothers
      exact ⟨rfl, hcancel, rfl⟩
  | succ d =>
      have hpow : 2 ≤ step ^ (d + 1) := Nat.le_trans hstep (Nat.le_pow (Nat.succ_pos d))
      have hmul : 100 * 2 ≤ others * step ^ (d + 1) := Nat.mul_le_mul hothers hpow
      omega

namespace Scale.IsExact

/-- What is not shown in the last unit is less than the next one. -/
theorem value_quotient_le (hscale : scale.IsExact) (hx : IsTiming x)
    (htier : scale.tier x < scale.larger.length) :
    (x / scale.divisor (scale.tier x)).value ≤ scale.step := by
  have hnext : ¬scale.tier x + 1 ≤ scale.tier x := Nat.not_succ_le_self _
  rw [hscale.le_tier_iff hx (Nat.succ_pos _) htier, not_le] at hnext
  have hstep : scale.step ≤ scale.step ^ scale.larger.length :=
    Nat.le_pow (Nat.zero_lt_of_lt htier)
  exact hx.value_div_le (hscale.pow_pos _) (hscale.pow_le htier.le)
    (hstep.trans hscale.largest_le) hnext.le

/-- What is not shown in the first unit is at least the unit that it is shown in. -/
theorem le_value_quotient (hscale : scale.IsExact) (hx : IsTiming x) (hpos : 0 < scale.tier x) :
    1 ≤ (x / scale.divisor (scale.tier x)).value := by
  have htier : scale.tier x ≤ scale.larger.length := scale.tierUpTo_le x _
  have hreached := (hscale.le_tier_iff hx hpos htier).mp (Nat.le_refl _)
  rw [← Nat.mul_one (scale.step ^ scale.tier x)] at hreached
  have hone := hx.le_value_div (hscale.pow_pos _) (hscale.pow_le htier) (by decide) hreached
  exact_mod_cast hone

theorem bounded (hscale : scale.IsExact) (hx : IsTiming x)
    (htier : scale.tier x < scale.larger.length) :
    Decimal.scaledUnits 2 (x / scale.divisor (scale.tier x)) ≤ 100 * scale.step ∧
      (Decimal.scaledUnits 2 (x / scale.divisor (scale.tier x)) < 100 * scale.step ↔
        (x / scale.divisor (scale.tier x)).value < scale.step - 1 / 200) := by
  have hquotient := (hscale.isTiming_div hx htier.le).1
  have hle := hscale.value_quotient_le hx htier
  constructor
  · refine hquotient.scaledUnits_le 2 ?_
    push_cast
    linarith
  · have hpos : 0 < 100 * scale.step := Nat.mul_pos (by decide) hscale.step_pos
    have heven : Even (100 * scale.step) := (show Even 100 by decide).mul_right _
    rw [hquotient.scaledUnits_lt_iff 2 hpos heven]
    push_cast
    constructor
    · intro hlt
      linarith
    · intro hlt
      linarith

theorem isStepped (hscale : scale.IsExact) (hstep : 1 < scale.step)
    (hsymbols : scale.symbols.Nodup) : IsStepped scale.symbols scale.step scale.text := by
  have hlast : ∀ {tier}, tier + 1 < scale.symbols.length → tier < scale.larger.length :=
    Nat.lt_of_succ_lt_succ
  constructor
  · intro x hx
    exact ⟨_, _, hscale.prints_text hx⟩
  · intro x tier hundredths hx hprints htier
    obtain ⟨rfl, hcount⟩ := hprints.unique hsymbols (hscale.prints_text hx)
    rw [hcount]
    exact hscale.bounded hx (hlast htier)
  · intro x y tier other hundredths others hx hy hprints hother hlt heq
    obtain ⟨rfl, hcount⟩ := hprints.unique hsymbols (hscale.prints_text hx)
    obtain ⟨rfl, hcount_y⟩ := hother.unique hsymbols (hscale.prints_text hy)
    have htop : scale.tier y ≤ scale.larger.length := scale.tierUpTo_le y _
    have hone := hscale.le_value_quotient hy (Nat.zero_lt_of_lt hlt)
    have hothers : 100 ≤ others := by
      rw [hcount_y]
      refine (hscale.isTiming_div hy htop).1.le_scaledUnits 2 ?_
      push_cast
      linarith
    have hle : hundredths ≤ 100 * scale.step := by
      rw [hcount]
      exact (hscale.bounded hx (hlt.trans_le htop)).1
    exact eq_of_mul_pow_eq hstep hlt hle hothers heq

end Scale.IsExact

theorem isStepped_time_size :
    IsStepped ["ns", "μs", "ms", "s"] 1000 durationText ∧
      IsStepped ["B", "KB", "MB", "GB"] 1024 sizeText := by
  constructor
  · exact Scale.IsExact.time.isStepped (by decide) (by decide)
  · exact Scale.IsExact.size.isStepped (by decide) (by decide)

/-- Just below a millisecond and a megabyte the whole steps are printed, so these quantities
appear in two units. -/
theorem prints_whole_steps :
    let x := ofNat 999_996
    let y := ofNat 1_048_575
    durationText x = "1000.00 μs" ∧ durationText (ofNat 1_000_000) = "1.00 ms" ∧
      sizeText y = "1024.00 KB" ∧ sizeText (ofNat 1_048_576) = "1.00 MB" ∧
      ¬(∀ tier hundredths, IsTiming x →
        Prints ["ns", "μs", "ms", "s"] (durationText x) tier hundredths → tier < 3 →
        hundredths < 100 * 1000) ∧
      ¬(∀ tier hundredths, IsTiming y →
        Prints ["B", "KB", "MB", "GB"] (sizeText y) tier hundredths → tier < 3 →
        hundredths < 100 * 1024) := by
  intro x y
  have htime : durationText x = "1000.00 μs" := by decide +kernel
  have hsize : sizeText y = "1024.00 KB" := by decide +kernel
  refine ⟨htime, by decide +kernel, hsize, by decide +kernel, ?_, ?_⟩
  · intro hbelow
    have hprints : Prints ["ns", "μs", "ms", "s"] (durationText x) 1 100_000 := by
      rw [htime]
      exact .inl ⟨_, "μs", Decimal.writes_pointed Nat.two_pos 100_000, rfl, by decide⟩
    exact absurd (hbelow 1 _ (isTiming_ofNat (by decide)) hprints (by decide)) (by decide)
  · intro hbelow
    have hprints : Prints ["B", "KB", "MB", "GB"] (sizeText y) 1 102_400 := by
      rw [hsize]
      exact .inl ⟨_, "KB", Decimal.writes_pointed Nat.two_pos 102_400, rfl, by decide⟩
    exact absurd (hbelow 1 _ (isTiming_ofNat (by decide)) hprints (by decide)) (by decide)

end Amount

end TimingReport
