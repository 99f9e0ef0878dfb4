import Mathlib.Tactic.SplitIfs
import TimingReport.Job
import TimingReport.Proofs.Amount.Figures
import TimingReport.Proofs.Markup.Entities

/-!
# What a document tells of its origin

A page and a Markdown document show the time at which they were made in one place, and a CSV
document does not show it. Of the path of the source, documents show the file name at most,
so the directory does not matter.
-/

namespace TimingReport

/-! ## File names -/

namespace Path

/-- The text can name an entry of a directory. -/
def IsEntryName (name : String) : Prop :=
  name ≠ "" ∧ '/' ∉ name.toList ∧ name ≠ "." ∧ name ≠ ".."

variable {name : String} (hname : IsEntryName name) (directory : String)
include hname

/-- The last part of a path in a directory is the name of the entry. -/
theorem parts_entry : parts (directory ++ "/" ++ name) = parts directory ++ [name] := by
  obtain ⟨hne, hslash, hdot, _⟩ := hname
  have htext : (directory ++ "/" ++ name).toList = directory.toList ++ '/' :: name.toList := by
    simp
  have hlast : parts name = [name] := by
    rw [parts, List.splitOn_eq_singleton hslash, List.map_singleton, String.ofList_toList]
    simp [hne, hdot]
  rw [← hlast, parts, htext, List.splitOn_append_cons_self, List.map_append, List.filter_append]
  rfl

/-- Whatever the directory is, the name in it is what is shown of a path. -/
theorem displayName_entry : displayName (directory ++ "/" ++ name) = name := by
  have hfile : fileName? (directory ++ "/" ++ name) = some name := by
    have hlast : (parts (directory ++ "/" ++ name)).getLast? = some name := by
      rw [parts_entry hname, List.getLast?_concat]
    unfold fileName?
    rw [hlast]
    split
    next heq => exact absurd (Option.some.inj heq) hname.2.2.2
    next => rfl
  rw [displayName, hfile, Option.getD_some]

end Path

/-! ## Timestamps -/

namespace Timestamp

open Markup

/-- Digits need no escape. -/
theorem literal_twoDigits (n : Nat) : Literal (twoDigits n).toList := by
  rw [twoDigits, String.toList_ofList]
  exact literal_of_figures (Amount.figures_padLeft (by decide) (Amount.figures_digits n))

theorem literal_yearText (year : Int) : Literal (yearText year).toList := by
  have hdigits : Literal
      (String.ofList (Decimal.padLeft 4 '0' (Decimal.digits year.natAbs))).toList := by
    rw [String.toList_ofList]
    exact literal_of_figures (Amount.figures_padLeft (by decide) (Amount.figures_digits _))
  unfold yearText
  dsimp only
  split_ifs
  · exact String.toList_append ▸ literal_append.mpr ⟨by decide, hdigits⟩
  · exact String.toList_append ▸ literal_append.mpr ⟨by decide, hdigits⟩
  · exact hdigits

/-- A page shows a timestamp as it is written, whatever its year. -/
theorem escape_text (t : Timestamp) : escape t.text = t.text := by
  have htext : Literal t.text.toList := by
    simp only [text, String.toList_append, literal_append, literal_twoDigits, literal_yearText,
      true_and, and_true]
    decide
  exact String.toList_inj.mp ((toList_escape _).trans (escapeChars_of_literal htext))

end Timestamp

/-! ## One place for a text -/

namespace Markup

/-- Whatever a text is, the tokens hold it in one and the same place. -/
def HoldOnce (tokens : String → List Token) : Prop :=
  ∃ before behind, ∀ content, tokens content = before ++ .text content :: behind

namespace HoldOnce

variable {tokens : String → List Token}

/-- A text holds itself. -/
theorem text : HoldOnce fun content => [.text content] := ⟨[], [], fun _ => rfl⟩

/-- What stands before does not depend on what is held. -/
theorem after (first : List Token) (hold : HoldOnce tokens) :
    HoldOnce fun content => first ++ tokens content := by
  obtain ⟨before, behind, hold⟩ := hold
  refine ⟨first ++ before, behind, fun content => ?_⟩
  dsimp only
  rw [hold, List.append_assoc]

/-- What stands behind does not depend on what is held. -/
theorem before (last : List Token) (hold : HoldOnce tokens) :
    HoldOnce fun content => tokens content ++ last := by
  obtain ⟨before, behind, hold⟩ := hold
  refine ⟨before, behind ++ last, fun content => ?_⟩
  dsimp only
  rw [hold, List.append_assoc, List.cons_append]

/-- A line holds what its tokens hold. -/
theorem line (level : Nat) (hold : HoldOnce tokens) :
    HoldOnce fun content => Markup.line level (tokens content) :=
  (hold.before _).after [_]

/-- A block holds what its tokens hold. -/
theorem block (level : Nat) (tag : String) (attributes : List (String × String))
    (hold : HoldOnce tokens) :
    HoldOnce fun content => Markup.block level tag attributes (tokens content) :=
  (hold.after _).before _

/-- Printed, the text that is held stands escaped between two fixed texts. -/
theorem render (hold : HoldOnce tokens) :
    ∃ before behind, ∀ content,
      Markup.render (tokens content) = before ++ escape content ++ behind := by
  obtain ⟨before, behind, hold⟩ := hold
  refine ⟨Markup.render before, Markup.render behind, fun content => ?_⟩
  rw [hold, Markup.render, List.map_append, String.join_append, List.map_cons, String.join_cons,
    String.append_assoc]
  rfl

end HoldOnce

end Markup

/-! ## Documents -/

/-- The view with a text for the time at which it was made. -/
def View.stamped (view : View) (stamp : String) : View := { view with generatedAt := stamp }

open Markup in
/-- A page holds its time once. -/
theorem Page.holdOnce_tokens (view : View) :
    HoldOnce fun stamp => Page.tokens (view.stamped stamp) := by
  let host := infoBox "Host" [.text view.hostName]
  let cpu :=
    infoBox "CPU" [.text view.cpuName, .text " (", .text view.cpuCount, .text " cores)"]
  let benchmarks :=
    infoBox "Benchmarks" [.verbatim (toString view.totalRecords), .text " benchmarks"]
  have hbox : HoldOnce fun stamp => infoBox "Generated" [.text stamp] :=
    .block 4 "div" _ ((HoldOnce.text.line 5).after _)
  have hboxes := ((hbox.before host).before cpu).before benchmarks
  have hoverview : HoldOnce fun stamp => overview (view.stamped stamp) :=
    .block 2 "div" _ (.after _ (.block 3 "div" _ hboxes))
  have hinside := ((hoverview.after (line 2 (element "h1" [] [.text view.title]))).before
    (view.sections.flatMap sectionPart)).before (footer view)
  have hbody : HoldOnce fun stamp => body (view.stamped stamp) :=
    .block 0 "body" _ (.block 1 "div" _ hinside)
  exact .after _ (.block 0 "html" _ (hbody.after (head view)))

/-- A Markdown document has its time between two fixed texts. -/
theorem Markdown.render_stamped (view : View) :
    ∃ before behind, ∀ stamp, Markdown.render (view.stamped stamp) = before ++ stamp ++ behind := by
  let head := ["# " ++ view.title, ""]
  let rest := (lines view).drop 3
  refine ⟨String.join (head.map (· ++ "\n")) ++ "- **Generated**: ",
    "\n" ++ String.join (rest.map (· ++ "\n")), fun stamp => ?_⟩
  have hlines : lines (view.stamped stamp) = head ++ ("- **Generated**: " ++ stamp) :: rest := rfl
  have hline : String.join ((("- **Generated**: " ++ stamp) :: rest).map (· ++ "\n")) =
      "- **Generated**: " ++ stamp ++ "\n" ++ String.join (rest.map (· ++ "\n")) :=
    String.join_cons
  rw [render, hlines, List.map_append, String.join_append, hline]
  simp only [String.append_assoc]

/-- A page and a Markdown document are the timestamp between two texts that do not depend on
it. A CSV document depends neither on the timestamp nor on the title. No document depends on
the directory of the source. -/
theorem Job.document_provenance :
    (∀ (job : Job) (run : Run), job.format ≠ .csv →
      ∃ before behind, ∀ now : Timestamp,
        job.document run now = before ++ now.text ++ behind) ∧
    (∀ (job : Job) (run : Run) (title : String) (now later : Timestamp),
      Job.document { job with format := .csv } run now =
        Job.document { job with format := .csv, title } run later) ∧
    ∀ (job : Job) (run : Run) (name first second : String) (now : Timestamp),
      Path.IsEntryName name →
        job.document { run with source := first ++ "/" ++ name } now =
          job.document { run with source := second ++ "/" ++ name } now := by
  refine ⟨fun job run hformat => ?_, fun job run title now later => rfl, ?_⟩
  · -- the view of any one time, which the others differ from in the stamp alone
    let view := job.view run ⟨0, 1, 1, 0, 0, 0, 0⟩
    have hview : ∀ now, job.view run now = view.stamped now.text := fun _ => rfl
    cases hjob : job.format with
    | html =>
        obtain ⟨before, behind, hrender⟩ := (Page.holdOnce_tokens view).render
        refine ⟨before, behind, fun now => ?_⟩
        have hnow := hrender now.text
        rw [now.escape_text, ← hview] at hnow
        rw [document, hjob]
        exact hnow
    | markdown =>
        obtain ⟨before, behind, hrender⟩ := Markdown.render_stamped view
        refine ⟨before, behind, fun now => ?_⟩
        rw [document, hjob, hview]
        exact hrender now.text
    | csv => exact absurd hjob hformat
  · intro job run name first second now hname
    have hsource : ∀ directory, Run.sourceName { run with source := directory ++ "/" ++ name } =
        name := Path.displayName_entry hname
    simp only [document, view, View.ofRun, hsource]

end TimingReport
