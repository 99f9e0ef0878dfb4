import TimingReport.Amount
import TimingReport.Proofs.Decimal.Digits

/-!
# Characters of amounts

The texts of durations, counts and throughputs consist of letters, digits, blanks and a
few marks, whatever the amount is. None of these characters ends a cell or begins markup
in any format, so amounts are shown without escapes.
-/

namespace TimingReport.Amount

/-- A character that texts of amounts are made of. -/
def isFigure (c : Char) : Bool := c.isAlphanum || [' ', '.', ',', '-', '/', 'μ'].contains c

/-- The text is made of such characters only. -/
def Figures (text : List Char) : Prop := ∀ c ∈ text, isFigure c

instance (text : List Char) : Decidable (Figures text) :=
  List.decidableBAll (fun c : Char => isFigure c) text

@[simp] theorem figures_nil : Figures [] := fun _ hc => absurd hc List.not_mem_nil

@[simp] theorem figures_cons {c : Char} {rest : List Char} :
    Figures (c :: rest) ↔ isFigure c ∧ Figures rest := List.forall_mem_cons

@[simp] theorem figures_append {first second : List Char} :
    Figures (first ++ second) ↔ Figures first ∧ Figures second := List.forall_mem_append

/-! ## Numbers -/

/-- Digits are figures. -/
@[simp] theorem figures_digits (n : Nat) : Figures (Decimal.digits n) := by
  intro c hc
  simp [isFigure, Char.isAlphanum, Decimal.isDigit_digits n c hc]

theorem figures_toString (n : Nat) : Figures (toString n).toList := by
  rw [Nat.toString_eq_ofList_toDigits, String.toList_ofList]
  exact figures_digits n

/-- A text of figures is filled up with figures. -/
theorem figures_padLeft {width : Nat} {fill : Char} {text : List Char} (hfill : isFigure fill)
    (htext : Figures text) : Figures (Decimal.padLeft width fill text) := by
  refine figures_append.mpr ⟨?_, htext⟩
  intro c hc
  exact List.eq_of_mem_replicate hc ▸ hfill

/-- A point among digits is a figure. -/
theorem figures_pointed (places n : Nat) : Figures (Decimal.pointed places n) := by
  unfold Decimal.pointed
  split
  · exact figures_digits n
  · refine figures_append.mpr ⟨figures_digits _, figures_cons.mpr ⟨by decide, ?_⟩⟩
    exact figures_padLeft (by decide) (figures_digits _)

/-- All numbers with a fixed count of places are figures, those that are not finite too. -/
theorem figures_fixed (places : Nat) (x : Binary64) :
    Figures (Decimal.fixed places x).toList := by
  have hbody : Figures (if x.isInfinite then "inf"
      else String.ofList (Decimal.pointed places (Decimal.scaledUnits places x))).toList := by
    split
    · decide
    · rw [String.toList_ofList]
      exact figures_pointed places _
  unfold Decimal.fixed
  split
  · decide
  · dsimp only
    split
    · rw [String.toList_append]
      exact figures_append.mpr ⟨by decide, hbody⟩
    · exact hbody

/-- Commas between groups of digits are figures. -/
theorem figures_separate {digits : List Char} (hdigits : Figures digits) :
    Figures (Decimal.separate digits) := by
  induction digits with
  | nil => exact figures_nil
  | cons digit rest ih =>
      obtain ⟨hdigit, hrest⟩ := figures_cons.mp hdigits
      unfold Decimal.separate
      split
      · exact figures_cons.mpr ⟨hdigit, figures_cons.mpr ⟨by decide, ih hrest⟩⟩
      · exact figures_cons.mpr ⟨hdigit, ih hrest⟩

/-! ## Amounts -/

/-- The symbols of a scale decide whether its texts are figures. -/
theorem figures_scaleText {scale : Scale}
    (hsymbols : ∀ symbol ∈ scale.first :: scale.larger, Figures symbol.toList)
    (value : Binary64) : Figures (scale.text value).toList := by
  have hsymbol : Figures (scale.symbol (scale.tier value)).toList := by
    unfold Scale.symbol
    rw [List.getD_eq_getElem?_getD]
    cases hget : (scale.first :: scale.larger)[scale.tier value]? with
    | none => decide
    | some symbol => exact hsymbols symbol (List.mem_of_getElem? hget)
  simp only [Scale.text, String.toList_append, figures_append]
  exact ⟨⟨figures_fixed 2 _, by decide⟩, hsymbol⟩

/-- A duration is made of figures. -/
theorem figures_durationText (nanoseconds : Binary64) :
    Figures (durationText nanoseconds).toList :=
  figures_scaleText (by decide) nanoseconds

/-- A count is made of figures. -/
theorem figures_countText (count : Nat) : Figures (countText count).toList := by
  rw [countText, Decimal.grouped, String.toList_ofList]
  exact figures_separate (figures_digits count)

/-- A throughput is made of figures, also one that is absent. -/
theorem figures_throughputText (throughput : Option Binary64) :
    Figures (throughputText throughput).toList := by
  unfold throughputText
  split
  · split
    · rw [String.toList_append]
      exact figures_append.mpr ⟨figures_fixed 0 _, by decide⟩
    · decide
  · decide

end TimingReport.Amount
