import TimingReport.Load
import TimingReport.Proofs.Markdown.Cells
import TimingReport.Proofs.Outcome
import TimingReport.Proofs.View.Categories

/-!
# Tables of the Markdown document

The document has a benchmark table for every section. The row of a record has five cells,
whatever its name is, and the name can be read back from the first one. Only a line feed in
the name breaks the row: it is not escaped, so the row takes one more line for each.
-/

namespace TimingReport.Markdown

open Amount

/-! ## Lines of a text -/

/-- The lines of a text, which line feeds divide. -/
def textLines (text : String) : List String := (text.toList.splitOn '\n').map String.ofList

/-- A line feed divides the lines before it from those behind. -/
theorem textLines_append (first rest : String) :
    textLines (first ++ "\n" ++ rest) = textLines first ++ textLines rest := by
  have htext : (first ++ "\n" ++ rest).toList = first.toList ++ '\n' :: rest.toList := by
    simp
  rw [textLines, htext, List.splitOn_append_cons_self, List.map_append]
  rfl

/-- Lines that end with line feeds leave an empty one behind the last. -/
theorem textLines_join (lines : List String) :
    textLines (String.join (lines.map (· ++ "\n"))) = lines.flatMap textLines ++ [""] := by
  induction lines with
  | nil => rfl
  | cons line rest ih =>
      rw [List.map_cons, String.join_cons, textLines_append, ih, List.flatMap_cons,
        List.append_assoc]

/-- A text has one line more than line feeds. -/
theorem length_textLines (text : String) :
    (textLines text).length = text.toList.count '\n' + 1 := by
  rw [textLines, List.length_map]
  induction text.toList with
  | nil => rfl
  | cons c rest ih =>
      rw [List.splitOn_cons_eq_if_modifyHead, List.count_cons]
      split
      · rw [List.length_cons, ih]
      · rw [List.length_modifyHead, ih]

/-- A text without line feeds is one line. -/
theorem textLines_of_notMem {text : String} (hfeed : '\n' ∉ text.toList) :
    textLines text = [text] := by
  rw [textLines, List.splitOn_eq_singleton hfeed, List.map_singleton, String.ofList_toList]

/-! ## Rows -/

theorem notMem_of_figures {c : Char} {text : List Char} (htext : Figures text)
    (hc : isFigure c = false) : c ∉ text := fun hmem => by
  have hfigure := htext c hmem
  rw [hc] at hfigure
  cases hfigure

/-- What stands in the cells of a row, but for the name. -/
def otherCells (row : Row) : List String :=
  [row.realTime ++ " (" ++ row.severity.word ++ ")", row.cpuTime, row.iterations, row.throughput]

theorem rowLine_eq (row : Row) :
    rowLine row = tableLine (escapeCell row.record.name :: otherCells row) := rfl

/-- No cell but the name has a pipe or a line feed. -/
theorem notMem_otherCells {row : Row} (hrow : row.ShowsFigures) {c : Char}
    (hc : c = '|' ∨ c = '\n') : ∀ cell ∈ otherCells row, c ∉ cell.toList := by
  have hfigure : isFigure c = false := by rcases hc with rfl | rfl <;> decide
  have hword : c ∉ (" (" ++ row.severity.word ++ ")").toList := by
    rcases hc with rfl | rfl <;> cases row.severity <;> decide
  have htime : c ∉ (row.realTime ++ " (" ++ row.severity.word ++ ")").toList := by
    simp only [String.toList_append, List.mem_append, not_or] at hword ⊢
    exact ⟨⟨⟨notMem_of_figures hrow.realTime hfigure, hword.1.1⟩, hword.1.2⟩, hword.2⟩
  simp only [otherCells, List.forall_mem_cons]
  exact ⟨htime, notMem_of_figures hrow.cpuTime hfigure,
    notMem_of_figures hrow.iterations hfigure, notMem_of_figures hrow.throughput hfigure,
    List.forall_mem_nil _⟩

/-- The line of a row splits into the cells that it is made of, whatever the name is. -/
theorem splitsInto_rowLine {row : Row} (hrow : row.ShowsFigures) :
    SplitsInto (rowLine row) (escapeCell row.record.name :: otherCells row) := by
  have hothers : ∀ cell ∈ otherCells row, Undivided false cell.toList := fun cell hcell =>
    .of_notMem (notMem_otherCells hrow (.inl rfl) cell hcell)
  exact splitsInto_tableLine (List.cons_ne_nil _ _)
    (List.forall_mem_cons.mpr ⟨undivided_escapeCell _, hothers⟩)

/-- The line splits into five cells, and the first of them is the name. -/
def NamesRecord (line : String) (record : Record) : Prop :=
  ∃ name others, SplitsInto line (name :: others) ∧ others.length = 4 ∧
    unescape name.toList = record.name.toList

/-- So the row of a record does, whatever its name is. -/
theorem namesRecord_rowLine {row : Row} (hrow : row.ShowsFigures) :
    NamesRecord (rowLine row) row.record :=
  ⟨_, _, splitsInto_rowLine hrow, rfl, unescape_escapeCell _⟩

/-- Escaping a name neither adds nor removes line feeds. -/
theorem count_escapeCell (name : String) :
    (escapeCell name).toList.count '\n' = name.toList.count '\n' := by
  rw [toList_escapeCell]
  induction name.toList with
  | nil => rfl
  | cons c rest ih =>
      rw [List.flatMap_cons, List.count_append, ih, List.count_cons, Nat.add_comm]
      by_cases hc : c = '|'
      · subst hc
        rfl
      · rw [if_neg hc, List.count_singleton]

/-- Cells without line feeds are joined without line feeds. -/
theorem notMem_flatMap {cells : List String} (hcells : ∀ cell ∈ cells, '\n' ∉ cell.toList) :
    '\n' ∉ cells.flatMap fun cell => ' ' :: cell.toList ++ [' ', '|'] := by
  rw [List.mem_flatMap]
  rintro ⟨cell, hcell, hfeed⟩
  have hcell := hcells cell hcell
  simp [hcell] at hfeed

/-- The line feeds of a row are those of its name. -/
theorem count_rowLine {row : Row} (hrow : row.ShowsFigures) :
    (rowLine row).toList.count '\n' = row.record.name.toList.count '\n' := by
  have hothers := notMem_flatMap (notMem_otherCells hrow (.inr rfl))
  rw [rowLine_eq, toList_tableLine (List.cons_ne_nil _ _), List.flatMap_cons, List.count_cons,
    List.count_append, List.count_eq_zero.mpr hothers]
  simp [count_escapeCell]

/-- Each line feed in the name breaks the row. -/
theorem length_textLines_rowLine {row : Row} (hrow : row.ShowsFigures) :
    (textLines (rowLine row)).length = row.record.name.toList.count '\n' + 1 := by
  rw [length_textLines, count_rowLine hrow]

/-! ## Tables -/

/-- The heading of a section. -/
def headingLines (s : Section) : List String := ["## " ++ s.category.label ++ " Benchmarks", ""]

/-- The first lines of a benchmark table. -/
def tableHead : List String := [
  "| Benchmark | Real Time | CPU Time | Iterations | Throughput |",
  "|-----------|-----------|----------|------------|------------|"]

theorem sectionLines_eq (s : Section) : sectionLines s =
    headingLines s ++ figureLines s ++ [""] ++ tableHead ++ s.rows.map rowLine ++ [""] := by
  have hhead : benchmarkLines s = tableHead ++ s.rows.map rowLine := by
    rw [benchmarkLines]
    congr 1
  rw [sectionLines, hhead]
  simp [headingLines]

/-- Lines without line feeds stay as they are. -/
theorem flatMap_textLines {lines : List String} (hfeeds : ∀ line ∈ lines, '\n' ∉ line.toList) :
    lines.flatMap textLines = lines := by
  rw [List.flatMap_congr fun line hline => textLines_of_notMem (hfeeds line hline)]
  simp

/-- A row of cells without line feeds has none. -/
theorem notMem_tableLine {cells : List String} (hne : cells ≠ [])
    (hcells : ∀ cell ∈ cells, '\n' ∉ cell.toList) : '\n' ∉ (tableLine cells).toList := by
  rw [toList_tableLine hne]
  exact List.not_mem_cons_of_ne_of_not_mem (by decide) (notMem_flatMap hcells)

/-- Figures are shown without line feeds. -/
theorem notMem_figureLines {s : Section} (hs : s.ShowsFigures) :
    ∀ line ∈ figureLines s, '\n' ∉ line.toList := by
  have hline : ∀ {label value : String}, '\n' ∉ label.toList → Figures value.toList →
      '\n' ∉ (tableLine [label, value]).toList := by
    intro label value hlabel hvalue
    have hvalue := notMem_of_figures hvalue (c := '\n') (by decide)
    exact notMem_tableLine (List.cons_ne_nil _ _)
      (List.forall_mem_cons.mpr ⟨hlabel, List.forall_mem_singleton.mpr hvalue⟩)
  simp only [figureLines, List.forall_mem_cons]
  exact ⟨by decide, by decide, hline (by decide) hs.count, hline (by decide) hs.average,
    hline (by decide) hs.median, hline (by decide) hs.fastest, hline (by decide) hs.slowest,
    List.forall_mem_nil _⟩

theorem notMem_headingLines (s : Section) : ∀ line ∈ headingLines s, '\n' ∉ line.toList := by
  rw [headingLines]
  cases s.category <;> decide

theorem notMem_tableHead : ∀ line ∈ tableHead, '\n' ∉ line.toList := by decide

/-- The document has a benchmark table for the section: below the section's figures stand the
head of the table and one line for each of the section's rows, and an empty line ends it. -/
def KeepsTable (document : String) (s : Section) : Prop :=
  ∃ before rows after, textLines document =
      before ++ headingLines s ++ figureLines s ++ [""] ++ tableHead ++ rows ++ "" :: after ∧
    List.Forall₂ (fun row line => NamesRecord line row.record) s.rows rows

/-- Where the document has the lines of a section. -/
theorem lines_eq_of_mem {view : View} {s : Section} (hs : s ∈ view.sections) :
    ∃ before after, lines view = before ++ sectionLines s ++ after := by
  obtain ⟨earlier, later, hsections⟩ := List.append_of_mem hs
  refine ⟨overviewLines view ++ earlier.flatMap sectionLines,
    later.flatMap sectionLines ++ ["---", "", "*Source: " ++ view.sourceName ++ "*"], ?_⟩
  rw [lines, hsections]
  simp

/-- Where the document shows a section, with as many lines for a row as its name needs. -/
theorem textLines_render {view : View} {s : Section} (hs : s ∈ view.sections)
    (hfigures : s.ShowsFigures) : ∃ before after, textLines (render view) =
      before ++ headingLines s ++ figureLines s ++ [""] ++ tableHead
        ++ s.rows.flatMap (fun row => textLines (rowLine row)) ++ "" :: after := by
  obtain ⟨before, after, hlines⟩ := lines_eq_of_mem hs
  refine ⟨before.flatMap textLines, after.flatMap textLines ++ [""], ?_⟩
  have hsection : (sectionLines s).flatMap textLines =
      headingLines s ++ figureLines s ++ [""] ++ tableHead
        ++ s.rows.flatMap (fun row => textLines (rowLine row)) ++ [""] := by
    simp only [sectionLines_eq, List.flatMap_append, flatMap_textLines (notMem_headingLines s),
      flatMap_textLines (notMem_figureLines hfigures), flatMap_textLines notMem_tableHead,
      List.flatMap_map]
    rfl
  rw [render, textLines_join, hlines]
  simp [hsection]

/-- The text of a section's table, whatever its names are. -/
theorem render_eq_of_mem {view : View} {s : Section} (hs : s ∈ view.sections) :
    ∃ before after, render view =
      before ++ String.join ((tableHead ++ s.rows.map rowLine).map (· ++ "\n")) ++ after := by
  obtain ⟨before, after, hlines⟩ := lines_eq_of_mem hs
  let text (lines : List String) := String.join (lines.map (· ++ "\n"))
  have happend : ∀ first rest, text (first ++ rest) = text first ++ text rest := by
    intro first rest
    simp only [text, List.map_append, String.join_append]
  refine ⟨text (before ++ headingLines s ++ figureLines s ++ [""]), text ([""] ++ after), ?_⟩
  have htable : lines view = before ++ headingLines s ++ figureLines s ++ [""] ++
      (tableHead ++ s.rows.map rowLine) ++ ([""] ++ after) := by
    rw [hlines, sectionLines_eq]
    simp only [List.append_assoc]
  change text (lines view) = _
  rw [htable, happend, happend]

/-- A section whose names have no line feed keeps its table: one line of five cells for each
of its records, from which the name can be read back. Pipes and backslashes do no harm. -/
theorem keepsTable_render (run : Run) (table : RuleTable) (title : String) (now : Timestamp)
    {s : Section} (hs : s ∈ (View.ofRun run table title now).sections)
    (hnames : ∀ row ∈ s.rows, '\n' ∉ row.record.name.toList) :
    (s.rows.map (·.record)).Perm
        (run.records.filter fun record => table.categoryOf record.name = s.category) ∧
      KeepsTable (render (View.ofRun run table title now)) s := by
  have hsection := View.sectionOf?_of_mem run table title now hs
  have hfigures := View.ofRun_showsFigures run table title now s hs
  refine ⟨?_, ?_⟩
  · rw [View.records_of_sectionOf? table hsection, (View.eq_of_sectionOf? table hsection).2]
    exact Summary.byTime_perm _
  · obtain ⟨before, after, hlines⟩ := textLines_render hs hfigures
    refine ⟨before, s.rows.map rowLine, after, ?_, ?_⟩
    · -- without line feeds in the names every row is a line of its own
      have hfeeds : ∀ line ∈ s.rows.map rowLine, '\n' ∉ line.toList := by
        refine List.forall_mem_map.mpr fun row hrow => List.count_eq_zero.mp ?_
        rw [count_rowLine (hfigures.rows row hrow)]
        exact List.count_eq_zero.mpr (hnames row hrow)
      rw [hlines, ← List.flatMap_map, flatMap_textLines hfeeds]
    · rw [List.forall₂_map_right_iff, List.forall₂_same]
      exact fun row hrow => namesRecord_rowLine (hfigures.rows row hrow)

theorem keepsTable_render_pipes :
    let run : Run := {
      records := [{ name := "a|b\\|\\", realTime := .ofNat 1 }], source := "results.json" }
    let view := View.ofRun run .standard "Pipes" ⟨2024, 5, 1, 12, 0, 0, 0⟩
    ∃ s, s ∈ view.sections ∧ (∀ row ∈ s.rows, '\n' ∉ row.record.name.toList) ∧
      (s.rows.map (·.record)).Perm (run.records.filter fun record =>
        RuleTable.standard.categoryOf record.name = s.category) ∧
      KeepsTable (render view) s := by
  intro run view
  have hsections : view.sections.head?.isSome := by decide +kernel
  have hnames : ∀ s ∈ view.sections, ∀ row ∈ s.rows, '\n' ∉ row.record.name.toList := by
    decide +kernel
  obtain ⟨s, hhead⟩ := Option.isSome_iff_exists.mp hsections
  have hs : s ∈ view.sections := List.mem_of_head? hhead
  exact ⟨s, hs, hnames s hs, keepsTable_render run .standard "Pipes" _ hs (hnames s hs)⟩

/-- An empty line stands right below a table that is kept. -/
theorem KeepsTable.mem_zip {document : String} {s : Section} (hkeeps : KeepsTable document s) :
    ("| Benchmark | Real Time | CPU Time | Iterations | Throughput |", "") ∈
      (textLines document).zip ((textLines document).drop (s.rows.length + 2)) := by
  obtain ⟨before, rows, after, hlines, hrows⟩ := hkeeps
  obtain ⟨above, habove⟩ : ∃ above,
      textLines document = above ++ (tableHead ++ (rows ++ "" :: after)) :=
    ⟨before ++ headingLines s ++ figureLines s ++ [""],
      by simpa only [List.append_assoc] using hlines⟩
  refine List.mem_of_getElem? (i := above.length) (List.getElem?_zip_eq_some.mpr ⟨?_, ?_⟩)
  · rw [habove]
    simp [tableHead]
  · have hindex : s.rows.length + 2 + above.length =
        above.length + (tableHead.length + (rows.length + 0)) := by
      rw [hrows.length_eq, tableHead, List.length_cons, List.length_singleton]
      omega
    rw [habove, List.getElem?_drop, hindex]
    simp

/-- A line feed in a name breaks the table: the record's row takes two lines. -/
theorem not_keepsTable_lineFeed :
    let text := "\x7b\"benchmarks\":[\x7b\"name\":\"a\\nb\",\"real_time\":1\x7d]\x7d"
    let now : Timestamp := ⟨2024, 5, 1, 12, 0, 0, 0⟩
    ∃ run, Load.ofText "results.json" text = .ok run ∧
      ∃ s ∈ (View.ofRun run .standard View.standardTitle now).sections,
        ¬KeepsTable (render (View.ofRun run .standard View.standardTitle now)) s := by
  intro text now
  let run : Run := {
    machine := {}, records := [{ name := "a\nb", realTime := .ofNat 1 }], source := "results.json" }
  let view := View.ofRun run .standard View.standardTitle now
  have hload : (Load.ofText "results.json" text).toOption = some run := by decide +kernel
  have hsections : view.sections.head?.isSome := by decide +kernel
  have hrows : ∀ s ∈ view.sections, s.rows.length = 1 := by decide +kernel
  have hlines : ∀ pair ∈ ((lines view).flatMap textLines ++ [""]).zip
      (((lines view).flatMap textLines ++ [""]).drop 3), pair.2 = "" →
        pair.1 ≠ "| Benchmark | Real Time | CPU Time | Iterations | Throughput |" := by
    decide +kernel
  obtain ⟨s, hhead⟩ := Option.isSome_iff_exists.mp hsections
  have hs : s ∈ view.sections := List.mem_of_head? hhead
  refine ⟨run, Outcome.toOption_eq_some_iff.mp hload, s, hs, fun hkeeps => ?_⟩
  have hmem := hkeeps.mem_zip
  rw [hrows s hs, render, textLines_join] at hmem
  exact hlines _ hmem rfl rfl

end TimingReport.Markdown
