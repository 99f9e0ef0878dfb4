import TimingReport.Proofs.Amount.Tiers
import TimingReport.Proofs.Timings.Values

/-!
# What amounts show

An amount without a sign is shown as a count of hundredths in one of the units of its scale.
Both can be read off its text, so a text shows nothing else.
-/

namespace TimingReport.Amount

open Binary64 Load

/-- The text shows a count of hundredths, without a sign, with the symbol at a place. -/
def Shows (symbols : List String) (text : String) (tier hundredths : Nat) : Prop :=
  ∃ number symbol, Decimal.Writes 2 hundredths number ∧ symbols[tier]? = some symbol ∧
    text = number ++ " " ++ symbol

/-! ## Texts -/

/-- The digits of a number that was written are those of its count. -/
theorem count_filter_isDigit {places n : Nat} {text : String}
    (hwrites : Decimal.Writes places n text) :
    Decimal.count (text.toList.filter Char.isDigit) = n := by
  obtain ⟨whole, fraction, rfl, hdigits, hcount, -⟩ := hwrites
  obtain ⟨hwhole, hfraction⟩ := List.forall_mem_append.mp hdigits
  have hpoint : Char.isDigit '.' = false := by decide
  rw [String.toList_ofList, List.filter_append, List.filter_cons_of_neg (by simp [hpoint]),
    List.filter_eq_self.mpr hwhole, List.filter_eq_self.mpr hfraction, hcount]

theorem notMem_of_writes {places n : Nat} {text : String}
    (hwrites : Decimal.Writes places n text) : ' ' ∉ text.toList := by
  obtain ⟨whole, fraction, rfl, hdigits, -⟩ := hwrites
  intro hblank
  rw [String.toList_ofList, List.mem_append, List.mem_cons] at hblank
  have hmem : ' ' ∈ whole ++ fraction := by
    rcases hblank with hwhole | hpoint | hfraction
    · exact List.mem_append_left _ hwhole
    · exact absurd hpoint (by decide)
    · exact List.mem_append_right _ hfraction
  exact absurd (hdigits _ hmem) (by decide)

/-- What stands in front of the first blank, and what stands behind it. -/
theorem append_blank_inj {first second rest other : List Char} (hfirst : ' ' ∉ first)
    (hsecond : ' ' ∉ second) (heq : first ++ ' ' :: rest = second ++ ' ' :: other) :
    first = second ∧ rest = other := by
  induction first generalizing second with
  | nil =>
      cases second with
      | nil => exact ⟨rfl, (List.cons.inj heq).2⟩
      | cons c second =>
          obtain ⟨rfl, -⟩ := List.cons.inj heq
          exact absurd List.mem_cons_self hsecond
  | cons c first ih =>
      cases second with
      | nil =>
          obtain ⟨rfl, -⟩ := List.cons.inj heq
          exact absurd List.mem_cons_self hfirst
      | cons d second =>
          obtain ⟨rfl, htail⟩ := List.cons.inj heq
          rw [List.mem_cons, not_or] at hfirst hsecond
          obtain ⟨rfl, hrest⟩ := ih hfirst.2 hsecond.2 htail
          exact ⟨rfl, hrest⟩

/-- A text shows one count in one unit. -/
theorem Shows.unique {symbols : List String} (hsymbols : symbols.Nodup) {text : String}
    {tier other hundredths others : Nat} (hshows : Shows symbols text tier hundredths)
    (hother : Shows symbols text other others) : tier = other ∧ hundredths = others := by
  obtain ⟨number, symbol, hwrites, hsymbol, rfl⟩ := hshows
  obtain ⟨number', symbol', hwrites', hsymbol', htext⟩ := hother
  have hchars := congrArg String.toList htext
  simp only [String.toList_append, List.append_assoc] at hchars
  obtain ⟨hnumber, hrest⟩ :=
    append_blank_inj (notMem_of_writes hwrites) (notMem_of_writes hwrites') hchars
  obtain rfl := String.toList_inj.mp hnumber
  obtain rfl := String.toList_inj.mp hrest
  constructor
  · obtain ⟨htier, hget⟩ := List.getElem?_eq_some_iff.mp hsymbol
    obtain ⟨hother, hget'⟩ := List.getElem?_eq_some_iff.mp hsymbol'
    exact (hsymbols.getElem_inj_iff).mp (hget.trans hget'.symm)
  · rw [← count_filter_isDigit hwrites, count_filter_isDigit hwrites']

/-! ## Scales -/

/-- The units of the scale are whole numbers that are not rounded. -/
structure Scale.IsExact (scale : Scale) : Prop where
  step_pos : 0 < scale.step
  largest_le : scale.step ^ scale.larger.length ≤ maxWhole

/-- The symbols of a scale, from its first unit. -/
def Scale.symbols (scale : Scale) : List String := scale.first :: scale.larger

variable {scale : Scale} {x : Binary64} {tier : Nat}

theorem Scale.getElem?_symbols (htier : tier ≤ scale.larger.length) :
    scale.symbols[tier]? = some (scale.symbol tier) := by
  have hlength : tier < scale.symbols.length := Nat.lt_succ_of_le htier
  rw [Scale.symbol, ← Scale.symbols, List.getD_eq_getElem _ _ hlength,
    List.getElem?_eq_getElem hlength]

theorem Scale.shows_pointed (htier : tier ≤ scale.larger.length) (n : Nat) :
    Shows scale.symbols (String.ofList (Decimal.pointed 2 n) ++ " " ++ scale.symbol tier) tier n :=
  ⟨_, _, Decimal.writes_pointed Nat.two_pos n, Scale.getElem?_symbols htier, rfl⟩

namespace Scale.IsExact

theorem time : time.IsExact := ⟨by decide, by decide⟩

theorem size : size.IsExact := ⟨by decide, by decide⟩

theorem pow_pos (hscale : scale.IsExact) (tier : Nat) : 0 < scale.step ^ tier :=
  Nat.pow_pos hscale.step_pos

theorem pow_le (hscale : scale.IsExact) (htier : tier ≤ scale.larger.length) :
    scale.step ^ tier ≤ maxWhole :=
  (Nat.pow_le_pow_right hscale.step_pos htier).trans hscale.largest_le

/-- A timing in the unit of a tier is a timing, and it has a sign only if the timing has. -/
theorem isTiming_div (hscale : scale.IsExact) (hx : IsTiming x)
    (htier : tier ≤ scale.larger.length) :
    IsTiming (x / scale.divisor tier) ∧
      (x.negative = false → (x / scale.divisor tier).negative = false) := by
  have hpos := hscale.pow_pos tier
  have hfinite : (ofNat (scale.step ^ tier)).isFinite :=
    isFinite_ofNat ((hscale.pow_le htier).trans maxWhole_le)
  refine ⟨hx.div hpos, fun hsign => ?_⟩
  have hnegative := (hx.div_of_isFinite hpos hfinite).2
  rw [hsign] at hnegative
  exact Bool.eq_false_iff.mpr fun htrue => Bool.false_ne_true (hnegative htrue)

/-- A timing reaches a tier if it is as large as its unit. -/
theorem le_tier_iff (hscale : scale.IsExact) (hx : IsTiming x) (hpos : 0 < tier)
    (htier : tier ≤ scale.larger.length) :
    tier ≤ scale.tier x ↔ ((scale.step ^ tier : Nat) : ℚ) ≤ x.value := by
  rw [Scale.le_tier_iff hscale.step_pos hpos, and_iff_right htier]
  exact hx.ofNat_le_iff (hscale.pow_le htier)

/-- A timing without a sign is shown in the unit of its tier, with the nearest hundredths. -/
theorem shows_text (hscale : scale.IsExact) (hx : IsTiming x) (hsign : x.negative = false) :
    Shows scale.symbols (scale.text x) (scale.tier x)
      (Decimal.scaledUnits 2 (x / scale.divisor (scale.tier x))) := by
  have htier : scale.tier x ≤ scale.larger.length := scale.tierUpTo_le x _
  obtain ⟨hquotient, hnegative⟩ := hscale.isTiming_div hx htier
  rw [Scale.text, Decimal.fixed_eq hquotient.1 (hnegative hsign)]
  exact Scale.shows_pointed htier _

end Scale.IsExact

end TimingReport.Amount
