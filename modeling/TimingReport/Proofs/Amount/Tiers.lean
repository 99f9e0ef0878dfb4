import Mathlib.Data.List.GetD
import TimingReport.Amount
import TimingReport.Proofs.Binary64.Order

/-!
# Units and severities by thresholds

The unit that a duration is shown in and its severity are two ladders of thresholds. Both only
rise with the duration, and they meet at a millisecond: what is shown in a smaller unit is good,
and nothing else is.
-/

namespace TimingReport

open Binary64

/-! ## Tiers -/

namespace Amount

variable {scale : Scale} {x y : Binary64} {k : Nat}

theorem Scale.tierUpTo_le (scale : Scale) (x : Binary64) (tier : Nat) :
    scale.tierUpTo x tier ≤ tier := by
  induction tier with
  | zero => exact Nat.le_refl 0
  | succ tier ih =>
      unfold Scale.tierUpTo
      split
      · exact Nat.le_refl _
      · exact Nat.le_succ_of_le ih

theorem Scale.symbol_mem {tier : Nat} (htier : tier ≤ scale.larger.length) :
    scale.symbol tier ∈ scale.first :: scale.larger := by
  have hlength : tier < (scale.first :: scale.larger).length := Nat.lt_succ_of_le htier
  rw [Scale.symbol, List.getD_eq_getElem _ _ hlength]
  exact List.getElem_mem hlength

/-- A value that reaches a tier reaches those below it too. -/
theorem Scale.divisor_le_of_le (hstep : 0 < scale.step) {lower tier : Nat} (hle : lower ≤ tier)
    (hx : (scale.divisor tier).le x) : (scale.divisor lower).le x :=
  Binary64.le_trans (ofNat_le_ofNat (Nat.pow_le_pow_right hstep hle)) hx

theorem Scale.le_tierUpTo_iff (hstep : 0 < scale.step) (hk : 0 < k) (tier : Nat) :
    k ≤ scale.tierUpTo x tier ↔ k ≤ tier ∧ (scale.divisor k).le x := by
  induction tier with
  | zero =>
      simp only [Scale.tierUpTo]
      omega
  | succ tier ih =>
      unfold Scale.tierUpTo
      split
      next hreached =>
        exact ⟨fun hle => ⟨hle, divisor_le_of_le hstep hle hreached⟩, And.left⟩
      next hmissed =>
        rw [ih]
        constructor
        · exact fun ⟨hle, hx⟩ => ⟨Nat.le_succ_of_le hle, hx⟩
        · rintro ⟨hle, hx⟩
          refine ⟨Nat.le_of_lt_succ (Nat.lt_of_le_of_ne hle ?_), hx⟩
          -- a tier that the value reaches is not the one that it misses
          rintro rfl
          exact hmissed hx

/-- A value is shown in the largest tier whose threshold it reaches. -/
theorem Scale.le_tier_iff (hstep : 0 < scale.step) (hk : 0 < k) :
    k ≤ scale.tier x ↔ k ≤ scale.larger.length ∧ (scale.divisor k).le x :=
  scale.le_tierUpTo_iff hstep hk _

theorem Scale.tier_mono (hstep : 0 < scale.step) (hle : x.le y) :
    scale.tier x ≤ scale.tier y := by
  rcases Nat.eq_zero_or_pos (scale.tier x) with hzero | hpos
  · omega
  · obtain ⟨htier, hx⟩ := (le_tier_iff hstep hpos).mp (Nat.le_refl (scale.tier x))
    exact (le_tier_iff hstep hpos).mpr ⟨htier, Binary64.le_trans hx hle⟩

/-! ## Units as they are shown -/

/-- The symbol of a unit in a duration's text. -/
def mark : TimeUnit → String
  | .nanoseconds => "ns"
  | .microseconds => "μs"
  | .milliseconds => "ms"
  | .seconds => "s"

/-- The unit whose symbol stands at the end of a text, behind a blank. -/
def shownUnit? (text : String) : Option TimeUnit :=
  [.nanoseconds, .microseconds, .milliseconds, .seconds].find? fun unit =>
    (" " ++ mark unit).toList.isSuffixOf text.toList

theorem shownUnit?_append (number : String) (unit : TimeUnit) :
    shownUnit? (number ++ " " ++ mark unit) = some unit := by
  cases unit <;> simp [shownUnit?, mark, List.isSuffixOf, List.isPrefixOf]

/-- The unit of a tier. -/
def unitOfTier : Nat → TimeUnit
  | 0 => .nanoseconds
  | 1 => .microseconds
  | 2 => .milliseconds
  | _ => .seconds

theorem shownUnit?_durationText (x : Binary64) :
    shownUnit? (durationText x) = some (unitOfTier (time.tier x)) := by
  have hsymbol : ∀ tier ≤ 3, time.symbol tier = mark (unitOfTier tier) := by decide
  have htier : time.tier x ≤ 3 := time.tierUpTo_le x 3
  rw [durationText, Scale.text, hsymbol _ htier, shownUnit?_append]

theorem le_one_iff_unitOfTier (tier : Nat) :
    tier ≤ 1 ↔ unitOfTier tier = .nanoseconds ∨ unitOfTier tier = .microseconds := by
  match tier with
  | 0 | 1 | 2 => decide
  | tier + 3 => simp [unitOfTier]

theorem three_le_of_unitOfTier {tier : Nat} (hseconds : unitOfTier tier = .seconds) :
    3 ≤ tier := by
  match tier with
  | 0 | 1 | 2 => contradiction
  | tier + 3 => exact Nat.le_add_left 3 tier

/-- A larger tier has no smaller unit. -/
theorem nanos_unitOfTier_mono : Monotone fun tier => (unitOfTier tier).nanos := by
  refine monotone_nat_of_le_succ fun tier => ?_
  match tier with
  | 0 | 1 | 2 => decide
  | _ + 3 => exact Nat.le_refl _

end Amount

/-! ## Severities -/

namespace Severity

variable {x y : Binary64}

/-- The place of a severity, the best one first. -/
def rank : Severity → Nat
  | good => 0
  | warning => 1
  | danger => 2

theorem rank_ofTime_le (hle : x.le y) : (ofTime x).rank ≤ (ofTime y).rank := by
  unfold ofTime
  by_cases hgood : y.lt (.ofNat goodBelow)
  · rw [if_pos hgood, if_pos (Binary64.lt_of_le_of_lt hle hgood)]
  · by_cases hwarning : y.lt (.ofNat warningBelow)
    · rw [if_neg hgood, if_pos hwarning, if_pos (Binary64.lt_of_le_of_lt hle hwarning)]
      split <;> decide
    · rw [if_neg hgood, if_neg hwarning]
      split
      · decide
      · split <;> decide

/-- The good times are those below the millisecond, the third tier. -/
theorem ofTime_eq_good_iff (hx : ¬x.isNaN) : ofTime x = good ↔ Amount.time.tier x ≤ 1 := by
  -- the third tier begins where the good times end
  have hmilli : Amount.time.divisor 2 = .ofNat goodBelow := rfl
  have htier : 2 ≤ Amount.time.tier x ↔ (Binary64.ofNat goodBelow).le x := by
    rw [← hmilli, Amount.Scale.le_tier_iff (by decide) (by decide)]
    exact and_iff_right (by decide)
  have hgood : ofTime x = good ↔ x.lt (.ofNat goodBelow) := by
    unfold ofTime
    split
    next hlt => simp [hlt]
    next hlt => split <;> simp [hlt]
  rw [hgood, ← not_iff_not, Binary64.not_lt_iff hx (not_isNaN_ofNat _), ← htier]
  omega

/-- A time of a second, the last tier, is beyond the warnings. -/
theorem ofTime_eq_danger (htier : 3 ≤ Amount.time.tier x) : ofTime x = danger := by
  have hsecond := ((Amount.Scale.le_tier_iff (by decide) (by decide)).mp htier).2
  have hnot : ∀ {n : Nat}, n ≤ Nat.pow 1000 3 → ¬x.lt (.ofNat n) := by
    intro n hn
    have hle := Binary64.le_trans (ofNat_le_ofNat hn) hsecond
    obtain ⟨hnan, hx, -⟩ := Binary64.le_iff.mp hle
    exact (Binary64.not_lt_iff hx hnan).mpr hle
  rw [ofTime, if_neg (hnot (by decide)), if_neg (hnot (by decide))]

end Severity

end TimingReport
