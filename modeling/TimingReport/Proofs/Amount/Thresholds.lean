import TimingReport.Proofs.Amount.Shown

/-!
# Thresholds of units

The unit of an amount is found by comparing rounded numbers. All thresholds are whole numbers
that are not rounded, so it is the last unit whose threshold the amount reaches as a rational
number, and a larger amount is never shown in a smaller unit.
-/

namespace TimingReport

open Binary64 Load

namespace Amount

/-- The last tier whose threshold a number reaches; what reaches none is in the first one. -/
structure IsTier (step top : Nat) (v : ℚ) (tier : Nat) : Prop where
  le_top : tier ≤ top
  reached : 0 < tier → (step : ℚ) ^ tier ≤ v
  last : ∀ other ≤ top, (step : ℚ) ^ other ≤ v → other ≤ tier

variable {scale : Scale} {x y : Binary64}

/-- A larger number is in no lower tier, and equal ones are in the same. -/
theorem IsTier.mono {step top tier other : Nat} {v w : ℚ} (htier : IsTier step top v tier)
    (hother : IsTier step top w other) (hle : v ≤ w) : tier ≤ other := by
  rcases Nat.eq_zero_or_pos tier with rfl | hpos
  · exact Nat.zero_le other
  · exact hother.last tier htier.le_top ((htier.reached hpos).trans hle)

namespace Scale.IsExact

theorem isTier_tier (hscale : scale.IsExact) (hx : IsTiming x) :
    IsTier scale.step scale.larger.length x.value (scale.tier x) := by
  have hreaches : ∀ tier, 0 < tier → tier ≤ scale.larger.length →
      (tier ≤ scale.tier x ↔ (scale.step : ℚ) ^ tier ≤ x.value) := by
    intro tier hpos htier
    rw [hscale.le_tier_iff hx hpos htier, Nat.cast_pow]
  have htop : scale.tier x ≤ scale.larger.length := scale.tierUpTo_le x _
  refine ⟨htop, ?_, ?_⟩
  · intro hpos
    exact (hreaches _ hpos htop).mp (Nat.le_refl _)
  · intro other hother hle
    rcases Nat.eq_zero_or_pos other with rfl | hpos
    · exact Nat.zero_le _
    · exact (hreaches other hpos hother).mpr hle

/-- A timing without a sign is shown in the unit of its tier. The number is its quotient by
that unit, first rounded to a binary64 number and then to the nearest hundredth. -/
theorem shows (hscale : scale.IsExact) (hx : IsTiming x) (hsign : x.negative = false) :
    ∃ tier hundredths, IsTier scale.step scale.larger.length x.value tier ∧
      Shows scale.symbols (scale.text x) tier hundredths ∧
      (x / ofNat (scale.step ^ tier)).isFinite ∧
      Decimal.NearestEven (100 * (x / ofNat (scale.step ^ tier)).value) hundredths := by
  have htier := hscale.isTier_tier hx
  have hquotient := (hscale.isTiming_div hx htier.le_top).1
  have hhundred : (10 : ℚ) ^ 2 = 100 := by norm_num
  refine ⟨_, _, htier, hscale.shows_text hx hsign, hquotient.1, ?_⟩
  rw [← hhundred]
  exact hquotient.nearestEven_scaledUnits 2

end Scale.IsExact

/-! ## Thresholds from below -/

/-- The tiers are climbed while the next threshold is reached. The divisor is the product of
the steps so far, as it was rounded. -/
def Scale.climb (scale : Scale) (value : Binary64) : Nat → Nat → Binary64 → Nat × Binary64
  | 0, tier, divisor => (tier, divisor)
  | left + 1, tier, divisor =>
      if (divisor * ofNat scale.step).le value then
        scale.climb value left (tier + 1) (divisor * ofNat scale.step)
      else (tier, divisor)

/-- The product of the steps is the next threshold. -/
theorem Scale.IsExact.divisor_mul (hscale : scale.IsExact) {tier : Nat}
    (htier : tier < scale.larger.length) :
    scale.divisor tier * ofNat scale.step = scale.divisor (tier + 1) := by
  have hstep : scale.step ≤ scale.step ^ scale.larger.length :=
    Nat.le_pow (Nat.zero_lt_of_lt htier)
  exact ofNat_mul_ofNat (hscale.pow_le htier.le) (hstep.trans hscale.largest_le)

theorem Scale.IsExact.climb_divisor (hscale : scale.IsExact) {left tier : Nat}
    (hleft : left + tier = scale.larger.length) (htier : tier ≤ scale.tier x) :
    scale.climb x left tier (scale.divisor tier) =
      (scale.tier x, scale.divisor (scale.tier x)) := by
  induction left generalizing tier with
  | zero =>
      have htop : scale.tier x ≤ scale.larger.length := scale.tierUpTo_le x _
      obtain rfl : tier = scale.tier x := by omega
      rfl
  | succ left ih =>
      have hreached : tier + 1 ≤ scale.tier x ↔ (scale.divisor (tier + 1)).le x := by
        rw [Scale.le_tier_iff hscale.step_pos (Nat.succ_pos tier)]
        exact and_iff_right (by omega)
      rw [Scale.climb, hscale.divisor_mul (by omega)]
      split
      next hle => exact ih (by omega) (hreached.mpr hle)
      next hmissed =>
        have hlast : ¬tier + 1 ≤ scale.tier x := mt hreached.mp hmissed
        obtain rfl : tier = scale.tier x := by omega
        rfl

/-- Climbing from the first unit finds the tier and its divisor. -/
theorem Scale.IsExact.climb_eq (hscale : scale.IsExact) (x : Binary64) :
    scale.climb x scale.larger.length 0 (ofNat 1) =
      (scale.tier x, scale.divisor (scale.tier x)) :=
  hscale.climb_divisor (Nat.add_zero _) (Nat.zero_le _)

/-! ## Durations -/

theorem durationText_shows (hfinite : x.isFinite) (hsign : x.negative = false) :
    (∃ tier hundredths, IsTier 1000 3 x.value tier ∧
      Shows ["ns", "μs", "ms", "s"] (durationText x) tier hundredths ∧
      (x / ofNat (1000 ^ tier)).isFinite ∧
      Decimal.NearestEven (100 * (x / ofNat (1000 ^ tier)).value) hundredths) ∧
    (∀ y : Binary64, y.isFinite → y.negative = false → x.value ≤ y.value →
      ∀ tier hundredths other others,
        Shows ["ns", "μs", "ms", "s"] (durationText x) tier hundredths →
        Shows ["ns", "μs", "ms", "s"] (durationText y) other others → tier ≤ other) ∧
    (10 ^ 9 ≤ x.value →
      ∃ hundredths, Shows ["ns", "μs", "ms", "s"] (durationText x) 3 hundredths) := by
  have hx := IsTiming.of_isFinite hfinite hsign
  have hsymbols : ["ns", "μs", "ms", "s"].Nodup := by decide
  obtain ⟨tier, hundredths, htier, hshows, hquotient⟩ := Scale.IsExact.time.shows hx hsign
  refine ⟨⟨tier, hundredths, htier, hshows, hquotient⟩, ?_, ?_⟩
  · intro y hfinite_y hsign_y hle i h j k hi hj
    have hy := IsTiming.of_isFinite hfinite_y hsign_y
    obtain ⟨other, others, hother, hshows_y, -⟩ := Scale.IsExact.time.shows hy hsign_y
    -- what the texts show are the tiers of the two numbers
    obtain ⟨rfl, -⟩ := hi.unique hsymbols hshows
    obtain ⟨rfl, -⟩ := hj.unique hsymbols hshows_y
    exact htier.mono hother hle
  · intro hlarge
    have hthree : 3 ≤ tier := by
      refine htier.last 3 (Nat.le_refl 3) ?_
      norm_num [Amount.time] at hlarge ⊢
      exact hlarge
    obtain rfl : tier = 3 := Nat.le_antisymm htier.le_top hthree
    exact ⟨hundredths, hshows⟩

/-- The quotient of the first duration is a little less than 1.005. -/
theorem durationText_shows_seconds :
    let x := ofNat 1_005_000_000
    let y := ofNat 7_200_000_000_000
    let symbols := ["ns", "μs", "ms", "s"]
    x.isFinite ∧ x.negative = false ∧ y.isFinite ∧ y.negative = false ∧
      x.value ≤ y.value ∧ 10 ^ 9 ≤ x.value ∧
      durationText x = "1.00 s" ∧ durationText y = "7200.00 s" ∧
      (∃ tier hundredths, IsTier 1000 3 x.value tier ∧
        Shows symbols (durationText x) tier hundredths ∧
        (x / ofNat (1000 ^ tier)).isFinite ∧
        Decimal.NearestEven (100 * (x / ofNat (1000 ^ tier)).value) hundredths) ∧
      (∀ tier hundredths other others, Shows symbols (durationText x) tier hundredths →
        Shows symbols (durationText y) other others → tier ≤ other) ∧
      ∃ hundredths, Shows symbols (durationText x) 3 hundredths := by
  intro x y symbols
  have hx : x.isFinite := isFinite_ofNat (by decide)
  have hy : y.isFinite := isFinite_ofNat (by decide)
  have hvalue : x.value = (1_005_000_000 : Nat) := value_ofNat (by decide)
  have hvalue_y : y.value = (7_200_000_000_000 : Nat) := value_ofNat (by decide)
  have hle : x.value ≤ y.value := by
    rw [hvalue, hvalue_y]
    norm_num
  have hlarge : 10 ^ 9 ≤ x.value := by
    rw [hvalue]
    norm_num
  obtain ⟨hshows, hmono, hseconds⟩ := durationText_shows hx rfl
  exact ⟨hx, rfl, hy, rfl, hle, hlarge, by decide +kernel, by decide +kernel, hshows,
    hmono y hy rfl hle, hseconds hlarge⟩

end Amount

end TimingReport
