import Mathlib.Data.List.TakeWhile
import TimingReport.Progress
import TimingReport.Proofs.Amount.Figures
import TimingReport.Proofs.Decimal.Grouped

/-!
# The lines of steps

Every step has a line, and all that is recorded about the step is on it. A threshold decides
by the level of a step whether its line is printed.
-/

namespace TimingReport

open Amount Console

/-! ## Quotes at the ends -/

namespace Text

/-- The text neither begins nor ends with a quote. -/
def Unquoted (text : String) : Prop :=
  text.toList.head? ≠ some '"' ∧ text.toList.getLast? ≠ some '"'

instance (text : String) : Decidable (Unquoted text) :=
  inferInstanceAs (Decidable (_ ∧ _))

theorem head?_dropWhile_quote (text : List Char) :
    (text.dropWhile (· == '"')).head? ≠ some '"' := by
  intro hhead
  have hnot := List.head?_dropWhile_not (· == '"') text
  rw [hhead] at hnot
  contradiction

theorem exists_dropWhile_quote (text : List Char) :
    ∃ quotes : Nat, text = List.replicate quotes '"' ++ text.dropWhile (· == '"') := by
  have hquotes : text.takeWhile (· == '"') =
      List.replicate (text.takeWhile (· == '"')).length '"' := by
    refine List.eq_replicate_iff.mpr ⟨rfl, fun c hc => ?_⟩
    have hquote := List.mem_takeWhile_imp hc
    exact beq_iff_eq.mp hquote
  refine ⟨(text.takeWhile (· == '"')).length, ?_⟩
  rw [← hquotes, List.takeWhile_append_dropWhile]

/-- Trimming takes away quotes at both ends and leaves none there. -/
theorem exists_trimQuotes (text : String) : ∃ before after : Nat,
    text.toList = List.replicate before '"' ++ (trimQuotes text).toList ++
      List.replicate after '"' ∧ Unquoted (trimQuotes text) := by
  let rest := text.toList.dropWhile (· == '"')
  let kept := rest.reverse.dropWhile (· == '"')
  have htrim : (trimQuotes text).toList = kept.reverse := String.toList_ofList
  obtain ⟨before, hbefore⟩ := exists_dropWhile_quote text.toList
  obtain ⟨after, hafter⟩ := exists_dropWhile_quote rest.reverse
  have hrest : rest = kept.reverse ++ List.replicate after '"' := by
    rw [List.reverse_eq_iff.mp hafter, List.reverse_append, List.reverse_replicate]
  refine ⟨before, after, ?_, ?_⟩
  · rw [htrim, List.append_assoc, ← hrest]
    exact hbefore
  · rw [Unquoted, htrim, List.getLast?_reverse]
    refine ⟨fun hhead => head?_dropWhile_quote text.toList ?_, head?_dropWhile_quote rest.reverse⟩
    change rest.head? = some '"'
    rw [hrest, List.head?_append, hhead]
    rfl

/-- Only texts that have quotes at an end are changed by trimming. -/
theorem trimQuotes_eq_self_iff {text : String} : trimQuotes text = text ↔ Unquoted text := by
  obtain ⟨before, after, htext, htrim⟩ := exists_trimQuotes text
  constructor
  · intro heq
    rwa [heq] at htrim
  · rintro ⟨hfirst, hlast⟩
    cases before with
    | succ before =>
        rw [htext, List.replicate_succ] at hfirst
        exact absurd rfl hfirst
    | zero =>
        cases after with
        | succ after =>
            rw [htext, List.replicate_succ', ← List.append_assoc, List.getLast?_concat] at hlast
            exact absurd rfl hlast
        | zero =>
            refine String.toList_inj.mp ?_
            rw [htext]
            simp

theorem trimQuotes_of_notMem {text : String} (hquote : '"' ∉ text.toList) :
    trimQuotes text = text :=
  trimQuotes_eq_self_iff.mpr
    ⟨fun hfirst => hquote (List.mem_of_head? hfirst),
      fun hlast => hquote (List.mem_of_getLast? hlast)⟩

end Text

theorem Text.trimQuotes_of_figures {text : String} (htext : Figures text.toList) :
    trimQuotes text = text := by
  refine trimQuotes_of_notMem fun hquote => ?_
  have hfigure := htext _ hquote
  revert hfigure
  decide

theorem Amount.figures_sizeText (bytes : Binary64) : Figures (sizeText bytes).toList :=
  figures_scaleText (by decide) bytes

/-! ## Lines -/

namespace Progress

/-- The kind of event that a step is. -/
def kind : Progress → Kind
  | loaded _ _ => .loaded
  | summarized _ _ _ => .category
  | rendered _ _ _ => .rendered
  | written _ _ => .written

/-- The line of a step at the start of the clock. -/
def line (step : Progress) : String := Event.elapsedText 0 ++ " " ++ step.event.words step.kind

/-- Every step has a line. -/
theorem line?_eq (elapsed : Nat) (step : Progress) : step.line? elapsed =
    some (Event.elapsedText elapsed ++ " " ++ step.event.words step.kind) := by
  cases step <;> rfl

theorem lines_eq (threshold : Threshold) (steps : List Progress) :
    lines threshold steps = (steps.filter fun step => threshold.admits step.level).map line := by
  have hline : line? 0 = fun step => some step.line := funext (line?_eq 0)
  rw [lines, hline, List.filterMap_eq_map']

theorem lines_append (threshold : Threshold) (first second : List Progress) :
    lines threshold (first ++ second) = lines threshold first ++ lines threshold second := by
  simp only [lines, List.filter_append, List.filterMap_append]

/-- Steps of one level are shown together or not at all. -/
theorem lines_of_level {level : Level} {steps : List Progress} (threshold : Threshold)
    (hlevel : ∀ step ∈ steps, step.level = level) :
    lines threshold steps = if threshold.admits level then steps.map line else [] := by
  rw [lines_eq]
  split
  next hadmits =>
    rw [List.filter_eq_self.mpr fun step hstep => by rwa [hlevel step hstep]]
  next hadmits =>
    rw [List.filter_eq_nil_iff.mpr fun step hstep => by rwa [hlevel step hstep]]
    rfl

/-! ## What lines show -/

/-- The line shows a text between two others, with nothing but blanks around it. -/
def ShowsBetween (left right line text : String) : Prop :=
  text ≠ "" ∧ ∃ before after blanks more,
    line = before ++ left ++ String.ofList (List.replicate blanks ' ') ++ text ++
      String.ofList (List.replicate more ' ') ++ right ++ after

/-- The line shows a count between two texts, in groups of three digits. Counts are kept in
64 bits. -/
def ShowsCount (left right line : String) (count : Nat) : Prop :=
  ∃ number, Decimal.IsGrouped (toString (count % Nat.pow 2 64)).toList number.toList ∧
    ShowsBetween left right line number

variable {left right line : String} {count : Nat}

theorem isGrouped_countText (count : Nat) :
    Decimal.IsGrouped (toString (count % Nat.pow 2 64)).toList
      (Event.countText (some (UInt64.ofNat count))).toList := by
  rw [Nat.toString_eq_ofList_toDigits, String.toList_ofList]
  exact Decimal.isGrouped_grouped (count % Nat.pow 2 64)

theorem showsCount_of_eq (before after : String) (blanks : Nat)
    (hline : line = before ++ left ++ String.ofList (List.replicate blanks ' ') ++
      Event.countText (some (UInt64.ofNat count)) ++ right ++ after) :
    ShowsCount left right line count := by
  have hgrouped := isGrouped_countText count
  refine ⟨_, hgrouped, fun hempty => ?_, before, after, blanks, 0, ?_⟩
  · have hdigits : (toString (count % Nat.pow 2 64)).toList = [] := by
      rw [← hgrouped.digits, hempty]
      rfl
    rw [Nat.toString_eq_ofList_toDigits, String.toList_ofList] at hdigits
    exact Nat.toDigits_ne_nil hdigits
  · simpa using hline

theorem scaleText_ne_empty (scale : Amount.Scale) (value : Binary64) : scale.text value ≠ "" := by
  intro hempty
  have htext := congrArg String.toList hempty
  simp [Amount.Scale.text] at htext

/-- The line of a loaded source shows the number of records. -/
theorem shows_loaded (source : String) (records : Nat) : ShowsCount " Loaded \x1b[93m"
    "\x1b[39m benchmarks" (Progress.line (.loaded source records)) records := by
  have hleft : " Loaded \x1b[93m" = " Loaded " ++ escape Color.yellow.number := rfl
  have hright : "\x1b[39m benchmarks" = escape 39 ++ " benchmarks" := rfl
  refine showsCount_of_eq (Event.elapsedText 0 ++ " " ++ paintBold .green "▶")
    (Event.divider ++ paint .white (Text.trimQuotes source)) 0 ?_
  rw [hleft, hright]
  simp only [Progress.line, event, kind, Event.words, paint, String.append_assoc,
    Option.getD_some, List.replicate_zero, String.ofList_nil, String.empty_append]

/-- The line of a category shows its label, how many records it has and their mean time. -/
theorem shows_summarized (category : Category) (count : Nat) (mean : Binary64) :
    let line := Progress.line (.summarized category count mean)
    ShowsBetween "\x1b[1m\x1b[37m" "\x1b[39m\x1b[0m │ " line category.label ∧
      ShowsCount "\x1b[37m" "\x1b[39m benchmarks" line count ∧
      ShowsBetween "avg \x1b[95m" "\x1b[39m" line (durationText mean) := by
  let start := Event.elapsedText 0 ++ " " ++ paint .blue "•" ++ " "
  let label := paintBold .white (Event.padRight 8 category.label) ++ Event.divider
  let records := paint .white (Event.padLeft 6 (Event.countText (some (UInt64.ofNat count)))) ++
    " benchmarks" ++ Event.divider
  have hline : Progress.line (.summarized category count mean) =
      start ++ label ++ records ++ "avg " ++ paint .magenta (durationText mean) := by
    have hmean := Text.trimQuotes_of_figures (figures_durationText mean)
    simp only [Progress.line, event, kind, Event.words, hmean, Option.getD_some,
      String.append_assoc, start, label, records]
  have hwhite : "\x1b[37m" = escape Color.white.number := rfl
  have hlabel : category.label ≠ "" := by cases category <;> decide
  rw [hline]
  let ending := "avg " ++ paint .magenta (durationText mean)
  let width := (Event.countText (some (UInt64.ofNat count))).toList.length
  refine ⟨⟨hlabel, start, records ++ ending, 0, 8 - category.label.length, ?_⟩,
    showsCount_of_eq (start ++ label) (Event.divider ++ ending) (6 - width) ?_,
    scaleText_ne_empty _ _, start ++ label ++ records, "", 0, 0, ?_⟩
  · have hleft : "\x1b[1m\x1b[37m" = escape 1 ++ escape Color.white.number := rfl
    have hright : "\x1b[39m\x1b[0m │ " = escape 39 ++ escape 0 ++ Event.divider := rfl
    rw [hleft, hright]
    simp [label, ending, paintBold, bold, paint, Event.padRight, String.append_assoc]
  · have hright : "\x1b[39m benchmarks" = escape 39 ++ " benchmarks" := rfl
    rw [hwhite, hright]
    simp [records, ending, width, paint, Event.padLeft, Decimal.padLeft, String.append_assoc]
  · have hleft : "avg \x1b[95m" = "avg " ++ escape Color.magenta.number := rfl
    have hright : "\x1b[39m" = escape 39 := rfl
    rw [hleft, hright]
    simp [paint, String.append_assoc]

/-- The line of a document shows how many sections and bytes it has. -/
theorem shows_rendered (format : Format) (sections bytes : Nat) :
    let line := Progress.line (.rendered format sections bytes)
    ShowsCount "\x1b[93m" "\x1b[39m sections" line sections ∧
      ShowsCount "\x1b[93m" "\x1b[39m bytes" line bytes := by
  let start := Event.elapsedText 0 ++ " " ++ paint .cyan "◆" ++ " Rendered " ++
    paintBold .white (Text.upper (Text.trimQuotes format.name)) ++ Event.divider
  let first := paint .yellow (Event.countText (some (UInt64.ofNat sections))) ++ " sections" ++
    Event.divider
  let second := paint .yellow (Event.countText (some (UInt64.ofNat bytes))) ++ " bytes"
  have hline : Progress.line (.rendered format sections bytes) = start ++ first ++ second := by
    simp only [Progress.line, event, kind, Event.words, Option.getD_some, String.append_assoc,
      start, first, second]
  have hleft : "\x1b[93m" = escape Color.yellow.number := rfl
  have hsections : "\x1b[39m sections" = escape 39 ++ " sections" := rfl
  have hbytes : "\x1b[39m bytes" = escape 39 ++ " bytes" := rfl
  rw [hline, hleft, hsections, hbytes]
  refine ⟨showsCount_of_eq start (Event.divider ++ second) 0 ?_,
    showsCount_of_eq (start ++ first) "" 0 ?_⟩
  · simp [first, paint, String.append_assoc]
  · simp [second, paint, String.append_assoc]

/-- The line of a written file shows its size. -/
theorem shows_written (path : String) (bytes : Nat) :
    ShowsBetween "\x1b[95m" "\x1b[39m" (Progress.line (.written path bytes))
      (sizeText (.ofNat bytes)) := by
  have hleft : "\x1b[95m" = escape Color.magenta.number := rfl
  have hright : "\x1b[39m" = escape 39 := rfl
  have hsize := Text.trimQuotes_of_figures (figures_sizeText (.ofNat bytes))
  refine ⟨scaleText_ne_empty _ _, Event.elapsedText 0 ++ " " ++ paintBold .green "■" ++ " Wrote " ++
    paintBold .white (Text.trimQuotes path) ++ Event.divider, "", 0, 0, ?_⟩
  rw [hleft, hright]
  simp only [Progress.line, event, kind, Event.words, hsize, paint, String.append_assoc,
    Option.getD_some, List.replicate_zero, String.ofList_nil, String.append_empty]

end Progress

end TimingReport
