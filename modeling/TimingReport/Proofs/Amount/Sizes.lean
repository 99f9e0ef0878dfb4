import TimingReport.Proofs.Amount.Tiers
import TimingReport.Proofs.Decimal.Places
import TimingReport.Proofs.Timings.Arithmetic

/-!
# Sizes of whole bytes

A whole number of bytes is shown in the largest unit that it reaches. The units of size are
powers of two, so nothing is lost when it is divided by one of them: it is rounded once, to the
hundredths that are written.
-/

namespace TimingReport

open Binary64

namespace Amount

variable {n k : Nat}

/-! ## Units -/

/-- The tier of the largest unit of size that is reached; what is empty is shown in bytes. -/
structure IsSizeTier (n tier : Nat) : Prop where
  le : tier ≤ 3
  reached : 0 < tier → 1024 ^ tier ≤ n
  last : ∀ other ≤ 3, 1024 ^ other ≤ n → other ≤ tier

theorem divisor_size (tier : Nat) : size.divisor tier = ofNat (Nat.pow 2 (10 * tier)) :=
  congrArg ofNat (Nat.pow_mul 2 10 tier).symm

theorem isSizeTier_tier (hn : n ≤ maxWhole) : IsSizeTier n (size.tier (ofNat n)) := by
  have hreaches : ∀ tier, 0 < tier →
      (tier ≤ size.tier (ofNat n) ↔ tier ≤ 3 ∧ 1024 ^ tier ≤ n) := by
    intro tier hpos
    rw [Scale.le_tier_iff (by decide) hpos]
    refine and_congr_right fun htier => ofNat_le_ofNat_iff ?_ hn
    exact (Nat.pow_le_pow_right (by decide) htier).trans (by decide)
  refine ⟨size.tierUpTo_le _ 3, fun hpos => ((hreaches _ hpos).mp (Nat.le_refl _)).2, ?_⟩
  intro other hother hle
  rcases Nat.eq_zero_or_pos other with rfl | hpos
  · exact Nat.zero_le _
  · exact (hreaches other hpos).mpr ⟨hother, hle⟩

/-! ## Hundredths -/

/-- Nothing is rounded when a whole number is divided by a power of two. -/
theorem ofNat_div_pow (hn : n ≤ maxWhole) (hk : k ≤ 53) :
    (ofNat n / ofNat (Nat.pow 2 k)).isFinite ∧
      (ofNat n / ofNat (Nat.pow 2 k)).negative = false ∧
      (ofNat n / ofNat (Nat.pow 2 k)).units * Nat.pow 2 k = n * unit := by
  have hpos : 0 < Nat.pow 2 k := Nat.two_pow_pos k
  have hpow : Nat.pow 2 k ≤ maxWhole := Nat.pow_le_pow_right Nat.two_pos hk
  have htiming := Load.isTiming_ofNat (hn.trans maxWhole_le)
  obtain ⟨hdiv, hnegative⟩ :=
    htiming.div_of_isFinite hpos (isFinite_ofNat (hpow.trans maxWhole_le))
  refine ⟨(htiming.div hpos).1, ?_, ?_⟩
  · exact Bool.eq_false_iff.mpr fun hsign => Bool.false_ne_true (hnegative hsign)
  · rw [units, hdiv, units_ofNat hn, units_ofNat hpow]
    exact unitsOf_nearest_div_pow hn (hk.trans (by decide))

/-- The hundredths that are written are those of the exact quotient. -/
theorem scaledUnits_ofNat_div_pow (hn : n ≤ maxWhole) (hk : k ≤ 53) :
    Decimal.scaledUnits 2 (ofNat n / ofNat (Nat.pow 2 k)) =
      roundHalfEven (100 * n) (Nat.pow 2 k) := by
  have hpos : 0 < Nat.pow 2 k := Nat.two_pow_pos k
  obtain ⟨-, -, hexact⟩ := ofNat_div_pow hn hk
  generalize (ofNat n / ofNat (Nat.pow 2 k)) = quotient at hexact
  have hcross : Nat.pow 2 k * (quotient.units * 100) = unit * (100 * n) := calc
    Nat.pow 2 k * (quotient.units * 100) = quotient.units * Nat.pow 2 k * 100 := by ring
    _ = unit * (100 * n) := by
      rw [hexact]
      ring
  calc roundHalfEven (quotient.units * 100) unit
      = roundHalfEven (unit * (100 * n)) (unit * Nat.pow 2 k) := by
        rw [← hcross, Nat.mul_comm unit, roundHalfEven_mul_mul hpos]
    _ = roundHalfEven (100 * n) (Nat.pow 2 k) := roundHalfEven_mul_mul unit_pos _ _

/-- A whole number of bytes is shown in the largest unit that it reaches, rounded to the nearest
hundredth of that unit and to the even one of two that are equally near. -/
theorem sizeText_ofNat (hn : n ≤ 2 ^ 53) :
    ∃ tier hundredths number symbol,
      IsSizeTier n tier ∧ ["B", "KB", "MB", "GB"][tier]? = some symbol ∧
      Decimal.NearestEven (100 * n / 1024 ^ tier) hundredths ∧
      Decimal.Writes 2 hundredths number ∧ sizeText (ofNat n) = number ++ " " ++ symbol := by
  have hmax : n ≤ maxWhole := hn
  have htier := isSizeTier_tier hmax
  generalize ht : size.tier (ofNat n) = tier at htier
  have hk : 10 * tier ≤ 53 := by
    have hle := htier.le
    omega
  obtain ⟨hfinite, hsign, -⟩ := ofNat_div_pow hmax hk
  refine ⟨tier, roundHalfEven (100 * n) (Nat.pow 2 (10 * tier)), _, size.symbol tier, htier,
    ?_, ?_, Decimal.writes_pointed Nat.two_pos _, ?_⟩
  · have hsymbol : ∀ tier ≤ 3, ["B", "KB", "MB", "GB"][tier]? = some (size.symbol tier) := by
      decide
    exact hsymbol tier htier.le
  · have hsize : Nat.pow 2 (10 * tier) = 1024 ^ tier := Nat.pow_mul 2 10 tier
    have hpos : 0 < 1024 ^ tier := Nat.pow_pos (by decide)
    rw [hsize]
    exact_mod_cast Decimal.nearestEven_roundHalfEven (100 * n) hpos
  · rw [sizeText, Scale.text, ht, divisor_size, Decimal.fixed_eq hfinite hsign,
      scaledUnits_ofNat_div_pow hmax hk]

/-- An eighth of a kilobyte is half-way between two hundredths. -/
theorem sizeText_ofNat_tie :
    let n : Nat := 1152
    n ≤ 2 ^ 53 ∧ sizeText (ofNat n) = "1.12 KB" ∧
      ∃ tier hundredths number symbol,
        IsSizeTier n tier ∧ ["B", "KB", "MB", "GB"][tier]? = some symbol ∧
        Decimal.NearestEven (100 * n / 1024 ^ tier) hundredths ∧
        Decimal.Writes 2 hundredths number ∧ sizeText (ofNat n) = number ++ " " ++ symbol := by
  intro n
  have hn : n ≤ 2 ^ 53 := by decide
  exact ⟨hn, by decide +kernel, sizeText_ofNat hn⟩

end Amount

end TimingReport
