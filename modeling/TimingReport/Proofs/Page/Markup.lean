import TimingReport.Page
import TimingReport.Proofs.Markup.Tags
import TimingReport.Proofs.View.Sections

/-!
# The markup of the page

The tags of a page are well nested and depend only on how many rows of which severity each
section has. No title, name, path or number can add a tag, take one away or alter one.
-/

namespace TimingReport

/-- The view of some run, made with some table, title and time. -/
def View.IsBuilt (view : View) : Prop :=
  ∃ run table title now, view = View.ofRun run table title now

/-- The severities of the rows, section after section. -/
def View.severities (view : View) : List (List Severity) :=
  view.sections.map fun s => s.rows.map (·.severity)

theorem View.IsBuilt.showsFigures {view : View} (hview : view.IsBuilt) :
    ∀ s ∈ view.sections, s.ShowsFigures := by
  obtain ⟨run, table, title, now, rfl⟩ := hview
  exact View.ofRun_showsFigures run table title now

namespace Page

open Markup

/-! ## Texts that are written as they are -/

/-- Figures are written without angle brackets. -/
theorem bare_of_figures {text : List Char} (htext : Amount.Figures text) : Bare text := by
  intro c hc
  have hfigure := htext c hc
  constructor <;> (rintro rfl; exact absurd hfigure (by decide))

theorem bare_label (category : Category) : Bare (category.label ++ " Benchmarks").toList := by
  cases category <;> decide

theorem bare_declarationText {declaration : String × String}
    (hdeclaration : Bare declaration.1.toList ∧ Bare declaration.2.toList) :
    Bare (Style.declarationText declaration).toList := by
  simp only [Style.declarationText, String.toList_append, bare_append]
  exact ⟨⟨⟨hdeclaration.1, by decide⟩, hdeclaration.2⟩, by decide⟩

/-- A rule of the style sheet has no angle brackets if its parts have none. -/
theorem bare_ruleText {rule : Style.Rule} (hselector : Bare rule.selector.toList)
    (hdeclarations : ∀ d ∈ rule.declarations, Bare d.1.toList ∧ Bare d.2.toList) :
    Bare rule.text.toList := by
  have htexts : ∀ text ∈ rule.declarations.map Style.declarationText, Bare text.toList := by
    intro text htext
    obtain ⟨declaration, hmem, rfl⟩ := List.mem_map.mp htext
    exact bare_declarationText (hdeclarations declaration hmem)
  unfold Style.Rule.text
  dsimp only
  split
  · simp only [String.toList_append, String.toList_intercalate, bare_append]
    refine ⟨⟨⟨⟨by decide, hselector⟩, by decide⟩, ?_⟩, by decide⟩
    refine Bare.intercalate (by decide) fun chars hchars => ?_
    obtain ⟨text, htext, rfl⟩ := List.mem_map.mp hchars
    exact htexts text htext
  · simp only [String.toList_append, String.toList_join, List.flatMap_map, bare_append]
    refine ⟨⟨⟨⟨by decide, hselector⟩, by decide⟩, ?_⟩, by decide⟩
    refine Bare.flatMap fun declaration hmem => ?_
    rw [bare_append, bare_append]
    exact ⟨⟨by decide, htexts _ (List.mem_map_of_mem hmem)⟩, by decide⟩

/-- The style sheet has no angle brackets. -/
theorem bare_sheet : Bare Style.sheet.toList := by
  have hrules : ∀ rule ∈ Style.rules, Bare rule.selector.toList ∧
      ∀ d ∈ rule.declarations, Bare d.1.toList ∧ Bare d.2.toList := by
    decide +kernel
  simp only [Style.sheet, String.toList_append, String.toList_join, List.flatMap_map, bare_append]
  refine ⟨by decide, Bare.flatMap fun rule hrule => ?_⟩
  exact bare_ruleText (hrules rule hrule).1 (hrules rule hrule).2

/-! ## The parts of the page -/

section Parts

variable {content : List Token}

/-- Plain elements on a line of their own. -/
theorem wellFormed_line_element {tag : String} {attributes : List (String × String)}
    (level : Nat) (htag : isElementName tag.toList) (hnames : BareNames attributes)
    (hcontent : WellFormed content) :
    WellFormed (line level (element tag attributes content)) :=
  (WellFormed.element htag hnames hcontent).line level

/-- A box of the overview is well formed, whatever it says. -/
theorem wellFormed_infoBox (label : String) (hcontent : WellFormed content) :
    WellFormed (infoBox label content) := by
  have hlabel : WellFormed (element "strong" [] [.text label]) :=
    .element (by decide) (by decide) (.text label)
  have hbreak : WellFormed [.void "br" []] := .void (by decide) (by decide)
  exact .block 4 (by decide) (bareNames_ofClass _)
    (((hlabel.append hbreak).line 5).append (hcontent.line 5))

/-- The overview is well formed, whatever the run is named. -/
theorem wellFormed_overview (view : View) : WellFormed (overview view) := by
  have hcpu : WellFormed [.text view.cpuName, .text " (", .text view.cpuCount, .text " cores)"] :=
    (WellFormed.text _).append ((WellFormed.text _).append
      ((WellFormed.text _).append (WellFormed.text _)))
  have htotal : Bare (toString view.totalRecords).toList :=
    bare_of_figures (Amount.figures_toString _)
  have hbenchmarks : WellFormed [.verbatim (toString view.totalRecords), .text " benchmarks"] :=
    (WellFormed.verbatim htotal).append (.text _)
  have hboxes := (((wellFormed_infoBox "Generated" (.text view.generatedAt)).append
    (wellFormed_infoBox "Host" (.text view.hostName))).append
      (wellFormed_infoBox "CPU" hcpu)).append (wellFormed_infoBox "Benchmarks" hbenchmarks)
  exact .block 2 (by decide) (bareNames_ofClass _)
    ((wellFormed_line_element 3 (by decide) (by decide) (.text _)).append
      (.block 3 (by decide) (bareNames_ofClass _) hboxes))

theorem wellFormed_summaryItem {value : String} (hvalue : Amount.Figures value.toList)
    (label : String) : WellFormed (summaryItem value label) := by
  have hstrong : WellFormed (line 5 (element "strong" [] [.verbatim value])) :=
    wellFormed_line_element 5 (by decide) (by decide) (.verbatim (bare_of_figures hvalue))
  exact .block 4 (by decide) (bareNames_ofClass _) (hstrong.append ((WellFormed.text label).line 5))

/-- A cell is well formed if what it shows is. -/
theorem wellFormed_cell {attributes : List (String × String)} (hnames : BareNames attributes)
    {token : Token} (htoken : WellFormed [token]) : WellFormed (cell attributes token) :=
  wellFormed_line_element 6 (by decide) hnames htoken

/-- The row of a record is well formed, whatever its name is. -/
theorem wellFormed_tableRow {row : Row} (hrow : row.ShowsFigures) : WellFormed (tableRow row) := by
  have hname := wellFormed_cell (bareNames_ofClass "benchmark-name") (.text row.record.name)
  have hrealTime := wellFormed_cell (bareNames_ofClass ("time-cell " ++ row.severity.word))
    (.verbatim (bare_of_figures hrow.realTime))
  have hcpuTime := wellFormed_cell (bareNames_ofClass "time-cell")
    (.verbatim (bare_of_figures hrow.cpuTime))
  have hnone : BareNames [] := by decide
  have hiterations := wellFormed_cell hnone (.verbatim (bare_of_figures hrow.iterations))
  have hthroughput := wellFormed_cell hnone (.verbatim (bare_of_figures hrow.throughput))
  exact .block 5 (by decide) hnone
    ((((hname.append hrealTime).append hcpuTime).append hiterations).append hthroughput)

theorem wellFormed_headings :
    WellFormed (headings.flatMap fun heading => line 6 (element "th" [] [.text heading])) :=
  .flatMap fun heading _ => wellFormed_line_element 6 (by decide) (by decide) (.text heading)

/-- A section is well formed, however many rows it has. -/
theorem wellFormed_sectionPart {s : Section} (hs : s.ShowsFigures) :
    WellFormed (sectionPart s) := by
  have hnone : BareNames [] := by decide
  have htitle : WellFormed (line 3 (element "h2" []
      [.verbatim (s.category.label ++ " Benchmarks")])) :=
    wellFormed_line_element 3 (by decide) hnone (.verbatim (bare_label s.category))
  have hsummary := (((wellFormed_summaryItem hs.count "Benchmarks").append
    (wellFormed_summaryItem hs.average "Average Time")).append
      (wellFormed_summaryItem hs.fastest "Fastest")).append
        (wellFormed_summaryItem hs.slowest "Slowest")
  have hhead : WellFormed (block 4 "thead" [] (block 5 "tr" [] (headings.flatMap fun heading =>
      line 6 (element "th" [] [.text heading])))) :=
    .block 4 (by decide) hnone (.block 5 (by decide) hnone wellFormed_headings)
  have hbody : WellFormed (block 4 "tbody" [] (s.rows.flatMap tableRow)) :=
    .block 4 (by decide) hnone (.flatMap fun row hrow => wellFormed_tableRow (hs.rows row hrow))
  exact .block 2 (by decide) (bareNames_ofClass _)
    ((htitle.append (.block 3 (by decide) (bareNames_ofClass _) hsummary)).append
      (.block 3 (by decide) hnone (hhead.append hbody)))

theorem wellFormed_footer (view : View) : WellFormed (footer view) := by
  have hgenerated : WellFormed (line 3 (element "p" [] [.text "Generated by benchreport"])) :=
    wellFormed_line_element 3 (by decide) (by decide) (.text _)
  have hsource : WellFormed (line 3 (element "p" [] [.text "Source: ", .text view.sourceName])) :=
    wellFormed_line_element 3 (by decide) (by decide) ((WellFormed.text _).append (.text _))
  exact .block 2 (by decide) (bareNames_ofClass _) (hgenerated.append hsource)

theorem wellFormed_head (view : View) : WellFormed (head view) := by
  have hcharset : WellFormed (line 1 [.void "meta" [("charset", "UTF-8")]]) :=
    (WellFormed.void (by decide) (by decide)).line 1
  have hviewport : WellFormed (line 1 [.void "meta" [("name", "viewport"),
      ("content", "width=device-width, initial-scale=1.0")]]) :=
    (WellFormed.void (by decide) (by decide)).line 1
  have htitle : WellFormed (line 1 (element "title" [] [.text view.title])) :=
    wellFormed_line_element 1 (by decide) (by decide) (.text _)
  have hstyle : WellFormed (line 1 (element "style" []
      [.verbatim Style.sheet, .verbatim "    "])) :=
    wellFormed_line_element 1 (by decide) (by decide)
      ((WellFormed.verbatim bare_sheet).append (.verbatim (by decide)))
  exact .block 0 (by decide) (by decide)
    (((hcharset.append hviewport).append htitle).append hstyle)

/-- The body of a page is well formed if its sections show figures. -/
theorem wellFormed_body {view : View} (hsections : ∀ s ∈ view.sections, s.ShowsFigures) :
    WellFormed (body view) := by
  have htitle : WellFormed (line 2 (element "h1" [] [.text view.title])) :=
    wellFormed_line_element 2 (by decide) (by decide) (.text _)
  have hparts : WellFormed (view.sections.flatMap sectionPart) :=
    .flatMap fun s hs => wellFormed_sectionPart (hsections s hs)
  exact .block 0 (by decide) (by decide) (.block 1 (by decide) (bareNames_ofClass _)
    (((htitle.append (wellFormed_overview view)).append hparts).append (wellFormed_footer view)))

/-- The page of a view whose amounts are figures is well formed, whatever its texts are. -/
theorem wellFormed_tokens {view : View} (hsections : ∀ s ∈ view.sections, s.ShowsFigures) :
    WellFormed (tokens view) :=
  (WellFormed.doctype.line 0).append (.block 0 (by decide) (by decide)
    ((wellFormed_head view).append (wellFormed_body hsections)))

end Parts

/-! ## The tags of the page -/

/-- Parts that depend only on a shape are equal for equal shapes. -/
theorem flatMap_eq_of_map_eq {α β γ : Type} {shape : α → γ} {parts : α → List β}
    (hparts : ∀ a b, shape a = shape b → parts a = parts b) {first second : List α}
    (hshapes : first.map shape = second.map shape) :
    first.flatMap parts = second.flatMap parts := by
  induction first generalizing second with
  | nil =>
      rw [List.map_nil, eq_comm, List.map_eq_nil_iff] at hshapes
      rw [hshapes]
  | cons a rest ih =>
      cases second with
      | nil => exact absurd hshapes (by simp)
      | cons b others =>
          rw [List.map_cons, List.map_cons, List.cons.injEq] at hshapes
          rw [List.flatMap_cons, List.flatMap_cons, hparts a b hshapes.1, ih hshapes.2]

/-- The tags of a row depend on its severity alone. -/
theorem inners_tableRow {row other : Row} (hseverity : row.severity = other.severity) :
    inners (tableRow row) = inners (tableRow other) := by
  simp [tableRow, cell, hseverity]

/-- The tags of a section depend only on the severities of its rows. -/
theorem inners_sectionPart {s other : Section}
    (hseverities : s.rows.map (·.severity) = other.rows.map (·.severity)) :
    inners (sectionPart s) = inners (sectionPart other) := by
  have hrows : inners (s.rows.flatMap tableRow) = inners (other.rows.flatMap tableRow) := by
    rw [inners_flatMap, inners_flatMap]
    exact flatMap_eq_of_map_eq (fun _ _ => inners_tableRow) hseverities
  simp [sectionPart, summaryItem, hrows]

/-- The tags of a page depend only on the severities of its rows. -/
theorem inners_tokens {view other : View} (hseverities : view.severities = other.severities) :
    inners (tokens view) = inners (tokens other) := by
  have hparts : inners (view.sections.flatMap sectionPart) =
      inners (other.sections.flatMap sectionPart) := by
    rw [inners_flatMap, inners_flatMap]
    exact flatMap_eq_of_map_eq (fun _ _ => inners_sectionPart) hseverities
  simp [tokens, head, body, overview, infoBox, footer, hparts]

/-- The tags of a page are well nested, and two pages whose sections have rows of the same
severities have the same tags, whatever their texts are. -/
theorem tags_render_of_isBuilt {view other : View} (hview : view.IsBuilt)
    (hother : other.IsBuilt) :
    WellNested (tags (render view).toList) ∧
      (view.severities = other.severities →
        tags (render view).toList = tags (render other).toList) := by
  have hwellFormed := wellFormed_tokens hview.showsFigures
  have htags : tags (render view).toList = (inners (tokens view)).map bracket :=
    tags_render hwellFormed.clean
  have hotherTags : tags (render other).toList = (inners (tokens other)).map bracket :=
    tags_render (wellFormed_tokens hother.showsFigures).clean
  constructor
  · rw [htags]
    exact hwellFormed.wellNested
  · intro hseverities
    rw [htags, hotherTags, inners_tokens hseverities]

/-- A title and a name that are markup add no tag to a page. -/
theorem tags_render_of_isBuilt_script :
    let plain : Record := { name := "BM_Echo", realTime := .zero false }
    let script : Record := { name := "</td><script>alert(1)</script>", realTime := .zero false }
    let now : Timestamp := ⟨2024, 5, 1, 12, 0, 0, 0⟩
    let view := View.ofRun { records := [plain], source := "echo.json" } .standard "Echo" now
    let other := View.ofRun { records := [script], source := "<br>.json" } .standard "<h1>" now
    view.IsBuilt ∧ other.IsBuilt ∧ view.severities = other.severities ∧
      WellNested (tags (render view).toList) ∧
        tags (render view).toList = tags (render other).toList := by
  intro plain script now view other
  have hview : view.IsBuilt := ⟨_, _, _, _, rfl⟩
  have hother : other.IsBuilt := ⟨_, _, _, _, rfl⟩
  have hseverities : view.severities = other.severities := by decide +kernel
  obtain ⟨hnested, htags⟩ := tags_render_of_isBuilt hview hother
  exact ⟨hview, hother, hseverities, hnested, htags hseverities⟩

end Page

end TimingReport
