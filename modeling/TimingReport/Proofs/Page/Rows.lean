import TimingReport.Proofs.Markup.Elements
import TimingReport.Proofs.Page.Markup

/-!
# Reading rows

A reader that looks for the tag in front of a benchmark's name and takes five cells from
there finds the texts of a row in it, whatever the name is.
-/

namespace TimingReport

/-- The texts of a record's row, its name first. -/
def Record.texts (record : Record) : List String := [
  record.name,
  durationText record.realTime,
  durationText record.cpuTime,
  countText record.iterations.toNat,
  throughputText record.itemsPerSecond]

namespace Page

open Markup

/-- The five cells that begin at each name of a benchmark. -/
def readRows (page : List Char) : List (List String) :=
  readEach "<td class=\"benchmark-name\">".toList (readCells 5) page

/-! ## Cells -/

theorem cellText_text (content : String) : cellText (.text content) = content := by
  simp [cellText, Token.render, unescape_escapeChars]

theorem cellText_verbatim {content : String} (hcontent : Amount.Figures content.toList) :
    cellText (.verbatim content) = content := by
  have hescape := escapeChars_of_literal (literal_of_figures hcontent)
  have hread := unescape_escapeChars content.toList
  rw [hescape] at hread
  simp [cellText, Token.render, hread]

theorem toList_render_cell (attributes : List (String × String)) (content : Token) :
    (Markup.render (cell attributes content)).toList =
      List.replicate 24 ' ' ++
        (bracket ("td".toList ++ (Token.attributesText attributes).toList) ++
          (content.render.toList ++ (bracket "/td".toList ++ ['\n']))) := by
  simp [Markup.render, cell, line, element, Token.render, bracket]

/-- Reading as many cells as there are gives the content of each. -/
theorem readCells_cells {cells : List (List (String × String) × Token)}
    (hcells : ∀ c ∈ cells, BareNames c.1 ∧ Bare c.2.render.toList) (rest : List Char) :
    readCells cells.length
        ((Markup.render (cells.flatMap fun c => cell c.1 c.2)).toList ++ rest) =
      some (cells.map fun c => cellText c.2) := by
  induction cells with
  | nil => rfl
  | cons c cells ih =>
      obtain ⟨⟨hnames, hcontent⟩, hothers⟩ := List.forall_mem_cons.mp hcells
      -- the indent in front of a cell and the line break behind it are passed over
      have hindent : Bare (List.replicate 24 ' ') := by decide
      have hbreak : Bare ['\n'] := by decide
      rw [List.flatMap_cons, toList_render_append, toList_render_cell]
      simp only [List.append_assoc]
      rw [readCells_text hindent, List.length_cons, readCells]
      have hcell := readCell_append (bare_attributesText hnames) hcontent
        (['\n'] ++ ((Markup.render (cells.flatMap fun c => cell c.1 c.2)).toList ++ rest))
      rw [hcell, Option.bind_eq_bind, Option.bind_some]
      dsimp only
      rw [readCells_text hbreak, ih hothers]
      rfl

/-! ## Rows -/

/-- The cells of a row. -/
def rowCells (row : Row) : List (List (String × String) × Token) := [
  (ofClass "benchmark-name", .text row.record.name),
  (ofClass ("time-cell " ++ row.severity.word), .verbatim row.realTime),
  (ofClass "time-cell", .verbatim row.cpuTime),
  ([], .verbatim row.iterations),
  ([], .verbatim row.throughput)]

theorem tableRow_eq (row : Row) :
    tableRow row = block 5 "tr" [] ((rowCells row).flatMap fun c => cell c.1 c.2) := by
  simp [tableRow, rowCells]

/-- The inner text of the tag in front of a benchmark's name. -/
def nameInner : List Char := "td class=\"benchmark-name\"".toList

/-- The texts of a row, its benchmark's name first. -/
def rowTexts (row : Row) : List String :=
  [row.record.name, row.realTime, row.cpuTime, row.iterations, row.throughput]

theorem map_cellText_rowCells {row : Row} (hrow : row.ShowsFigures) :
    (rowCells row).map (fun c => cellText c.2) = rowTexts row := by
  simp [rowCells, rowTexts, cellText_text, cellText_verbatim hrow.realTime,
    cellText_verbatim hrow.cpuTime, cellText_verbatim hrow.iterations,
    cellText_verbatim hrow.throughput]

theorem bare_rowCells {row : Row} (hrow : row.ShowsFigures) :
    ∀ c ∈ rowCells row, BareNames c.1 ∧ Bare c.2.render.toList := by
  have hname : Bare (Token.text row.record.name).render.toList := by
    rw [Token.render, toList_escape]
    exact bare_escapeChars _
  simp only [rowCells, List.forall_mem_cons]
  exact ⟨⟨bareNames_ofClass _, hname⟩, ⟨bareNames_ofClass _, bare_of_figures hrow.realTime⟩,
    ⟨bareNames_ofClass _, bare_of_figures hrow.cpuTime⟩,
    ⟨by decide, bare_of_figures hrow.iterations⟩,
    ⟨by decide, bare_of_figures hrow.throughput⟩, fun _ hc => absurd hc List.not_mem_nil⟩

/-- The tokens of a row's cells behind the tag in front of the name. -/
def behindName (row : Row) : List Token :=
  [.text row.record.name, .closing "td", .verbatim "\n"] ++
    (rowCells row).tail.flatMap fun c => cell c.1 c.2

theorem cells_eq (row : Row) :
    ((rowCells row).flatMap fun c => cell c.1 c.2) =
      [.verbatim (String.ofList (List.replicate 24 ' '))] ++
        (.opening "td" (ofClass "benchmark-name") :: behindName row) := rfl

/-- A row has one name. -/
theorem nameInner_not_mem_behindName (row : Row) : nameInner ∉ inners (behindName row) := by
  have hinners : inners (behindName row) = ["/td".toList,
      "td class=\"time-cell ".toList ++ row.severity.word.toList ++ "\"".toList, "/td".toList,
      "td class=\"time-cell\"".toList, "/td".toList, "td".toList, "/td".toList, "td".toList,
      "/td".toList] := by
    cases hseverity : row.severity <;> simp [behindName, rowCells, cell, hseverity] <;> decide
  rw [hinners]
  cases row.severity <;> decide

/-- Behind the tag in front of the name, the five cells of the row are read. -/
theorem readCells_behindName {row : Row} (hrow : row.ShowsFigures) (rest : List Char) :
    readCells 5 ((Markup.render (.opening "td" (ofClass "benchmark-name") ::
      behindName row)).toList ++ rest) = some (rowTexts row) := by
  have hindent :
      Bare (Markup.render [.verbatim (String.ofList (List.replicate 24 ' '))]).toList := by
    decide
  have hcount : (rowCells row).length = 5 := rfl
  have hfive := readCells_cells (bare_rowCells hrow) rest
  rw [cells_eq, hcount, toList_render_append, List.append_assoc, readCells_text hindent,
    map_cellText_rowCells hrow] at hfive
  exact hfive

/-- A reader of rows finds the texts of a row in it. -/
theorem finds_tableRow {row : Row} (hrow : row.ShowsFigures) :
    Finds nameInner (readCells 5) (tableRow row) [rowTexts row] := by
  have hmark : Bare nameInner := by decide
  have hclean := (wellFormed_tableRow hrow).clean
  rw [tableRow_eq] at hclean
  have hframe : Lacks nameInner (block 5 "tr" [] []) :=
    ⟨(WellFormed.block 5 (by decide) (by decide) .nil).clean, by decide⟩
  -- the reader starts at the tag in front of the name, behind the first indent
  have hcells : ∀ token ∈ (rowCells row).flatMap fun c => cell c.1 c.2, token.Clean :=
    fun token htoken => hclean token (List.mem_append_left _ (List.mem_append_right _ htoken))
  rw [cells_eq, List.forall_mem_append] at hcells
  obtain ⟨hindent, hname⟩ := hcells
  obtain ⟨hopening, hbehind⟩ := List.forall_mem_cons.mp hname
  have hname : Finds nameInner (readCells 5)
      (.opening "td" (ofClass "benchmark-name") :: behindName row) [rowTexts row] :=
    .of_mark hopening (by decide) ⟨hbehind, nameInner_not_mem_behindName row⟩
      (readCells_behindName hrow)
  have hfive : Finds nameInner (readCells 5) _ _ :=
    (Finds.none_of_lacks hmark ⟨hindent, by decide⟩).append hname
  rw [← cells_eq, List.nil_append] at hfive
  rw [tableRow_eq]
  exact .block hmark hframe hfive

end Page

end TimingReport
