import TimingReport.Proofs.Page.Rows

/-!
# Reading a page back

A reader that knows only where cells, headlines and paragraphs begin and end reads the
whole report back from its page: one row for each record, with its name as it was given,
the title and the name of the source file.
-/

namespace TimingReport.Page

open Markup

/-! ## What is found in the page -/

/-- A view without texts and sections. -/
def blank : View := ⟨"", "", "", "", "", 0, "", []⟩

/-- A section without texts and rows. -/
def blankSection : Section := ⟨⟨.core, ⟨0, .nan, .nan, .nan, .nan⟩, []⟩, "", "", "", "", "", []⟩

/-- A row without texts. -/
def blankRow (severity : Severity) : Row :=
  ⟨⟨"", .nan, .nan, 0, none⟩, "", severity, "", "", ""⟩

/-- The page apart from its headline, its sections and its footer. -/
def frame (view : View) : List Token :=
  line 0 [.doctype] ++ block 0 "html" [("lang", "en")] (head view ++
    block 0 "body" [] (block 1 "div" (ofClass "container") (overview view)))

section Finds

variable {β : Type} {mark : List Char} {read : List Char → Option β}

theorem lacks_frame (view : View) (hnone : mark ∉ inners (frame blank)) :
    Lacks mark (frame view) := by
  have hbody : WellFormed (block 0 "body" [] (block 1 "div" (ofClass "container")
      (overview view))) :=
    .block 0 (by decide) (by decide)
      (.block 1 (by decide) (bareNames_ofClass _) (wellFormed_overview view))
  have hpage : WellFormed (frame view) :=
    (WellFormed.doctype.line 0).append
      (.block 0 (by decide) (by decide) ((wellFormed_head view).append hbody))
  have hinners : inners (frame view) = inners (frame blank) := by
    simp [frame, head, overview, infoBox]
  exact ⟨hpage.clean, by rwa [hinners]⟩

/-- A reader that passes over the frame finds what it finds in the headline, in the sections
and in the footer. -/
theorem finds_tokens {view : View} (hmark : Bare mark) (hnone : mark ∉ inners (frame blank))
    {headline footnote : List β} {found : Section → List β}
    (hheadline : Finds mark read (line 2 (element "h1" [] [.text view.title])) headline)
    (hsections : ∀ s ∈ view.sections, Finds mark read (sectionPart s) (found s))
    (hfooter : Finds mark read (footer view) footnote) :
    Finds mark read (tokens view) (headline ++ view.sections.flatMap found ++ footnote) := by
  -- the frame lacks the mark, so each of its blocks does
  obtain ⟨hdoctype, hhtml⟩ := Lacks.append_iff.mp (lacks_frame view hnone)
  obtain ⟨hhtml, hinside⟩ := Lacks.block_iff.mp hhtml
  obtain ⟨hhead, hbody⟩ := Lacks.append_iff.mp hinside
  obtain ⟨hbody, hcontainer⟩ := Lacks.block_iff.mp hbody
  obtain ⟨hcontainer, hoverview⟩ := Lacks.block_iff.mp hcontainer
  have hshown := ((hheadline.append (.none_of_lacks hmark hoverview)).append
    (.flatMap hsections)).append hfooter
  have hbodyPart : Finds mark read (body view) _ :=
    .block hmark hbody (.block hmark hcontainer hshown)
  have hpage : Finds mark read (tokens view) _ :=
    (Finds.none_of_lacks hmark hdoctype).append
      (.block hmark hhtml ((Finds.none_of_lacks hmark hhead).append hbodyPart))
  rwa [List.nil_append, List.nil_append, List.append_nil] at hpage

theorem lacks_emptied {s : Section} (hs : s.ShowsFigures)
    (hnone : mark ∉ inners (sectionPart blankSection)) :
    Lacks mark (sectionPart { s with rows := [] }) := by
  have hempty : ({ s with rows := [] } : Section).ShowsFigures :=
    { hs with rows := fun _ hrow => absurd hrow List.not_mem_nil }
  have hinners : inners (sectionPart { s with rows := [] }) = inners (sectionPart blankSection) :=
    inners_sectionPart rfl
  exact ⟨(wellFormed_sectionPart hempty).clean, by rwa [hinners]⟩

/-- A reader that passes over a section without rows finds what it finds in the rows. -/
theorem finds_sectionPart {s : Section} (hs : s.ShowsFigures) (hmark : Bare mark)
    (hnone : mark ∉ inners (sectionPart blankSection)) {found : Row → List β}
    (hrows : ∀ row ∈ s.rows, Finds mark read (tableRow row) (found row)) :
    Finds mark read (sectionPart s) (s.rows.flatMap found) := by
  obtain ⟨hpart, hinside⟩ := Lacks.block_iff.mp (lacks_emptied hs hnone)
  obtain ⟨hsummary, htable⟩ := Lacks.append_iff.mp hinside
  obtain ⟨htable, hinside⟩ := Lacks.block_iff.mp htable
  obtain ⟨hhead, hbody⟩ := Lacks.append_iff.mp hinside
  obtain ⟨hbody, _⟩ := Lacks.block_iff.mp hbody
  have htablePart := (Finds.none_of_lacks hmark hhead).append
    (.block hmark hbody (.flatMap hrows))
  have hsection : Finds mark read (sectionPart s) _ :=
    .block hmark hpart ((Finds.none_of_lacks hmark hsummary).append
      (.block hmark htable htablePart))
  rwa [List.nil_append, List.nil_append] at hsection

/-- A section has nothing for a reader whose mark is neither in its frame nor in a row. -/
theorem finds_sectionPart_nil {s : Section} (hs : s.ShowsFigures) (hmark : Bare mark)
    (hnone : mark ∉ inners (sectionPart blankSection))
    (hrow : ∀ severity, mark ∉ inners (tableRow (blankRow severity))) :
    Finds mark read (sectionPart s) [] := by
  have hrows : ∀ row ∈ s.rows, Finds mark read (tableRow row) [] := by
    intro row hmem
    have hinners : inners (tableRow row) = inners (tableRow (blankRow row.severity)) :=
      inners_tableRow rfl
    refine .none_of_lacks hmark ⟨(wellFormed_tableRow (hs.rows row hmem)).clean, ?_⟩
    rw [hinners]
    exact hrow row.severity
  have hsection := finds_sectionPart hs hmark hnone hrows
  rwa [List.flatMap_eq_nil_iff.mpr fun _ _ => rfl] at hsection

theorem lacks_headline (view : View) (hopening : mark ≠ "h1".toList)
    (hclosing : mark ≠ "/h1".toList) :
    Lacks mark (line 2 (element "h1" [] [.text view.title])) := by
  refine ⟨(wellFormed_line_element 2 (by decide) (by decide) (.text view.title)).clean, ?_⟩
  simpa [Token.attributesText] using ⟨hopening, hclosing⟩

theorem lacks_footer (view : View) (hnone : mark ∉ inners (footer blank)) :
    Lacks mark (footer view) := by
  have hinners : inners (footer view) = inners (footer blank) := by simp [footer]
  exact ⟨(wellFormed_footer view).clean, by rwa [hinners]⟩

end Finds

variable {view : View}

/-- A reader of rows finds every row of the view. -/
theorem finds_rows (hsections : ∀ s ∈ view.sections, s.ShowsFigures) :
    Finds nameInner (readCells 5) (tokens view)
      (view.sections.flatMap fun s => s.rows.map rowTexts) := by
  have hmark : Bare nameInner := by decide
  have hparts : ∀ s ∈ view.sections,
      Finds nameInner (readCells 5) (sectionPart s) (s.rows.map rowTexts) := by
    intro s hs
    rw [List.map_eq_flatMap]
    exact finds_sectionPart (hsections s hs) hmark (by decide +kernel)
      fun row hrow => finds_tableRow ((hsections s hs).rows row hrow)
  have hpage := finds_tokens hmark (by decide +kernel)
    (.none_of_lacks hmark (lacks_headline view (by decide) (by decide))) hparts
    (.none_of_lacks hmark (lacks_footer view (by decide)))
  rwa [List.nil_append, List.append_nil] at hpage

/-- A reader of headlines finds the title. -/
theorem finds_title (hsections : ∀ s ∈ view.sections, s.ShowsFigures) :
    Finds "h1".toList (readElement "h1") (tokens view) [view.title] := by
  have hmark : Bare "h1".toList := by decide
  have hheadline : Finds "h1".toList (readElement "h1")
      (line 2 (element "h1" [] [.text view.title])) [view.title] := by
    have helement := finds_element "h1" (by decide) [view.title]
    exact .line hmark 2 (by simpa using helement)
  have hparts : ∀ s ∈ view.sections, Finds "h1".toList (readElement "h1") (sectionPart s) [] :=
    fun s hs => finds_sectionPart_nil (hsections s hs) hmark (by decide +kernel)
      fun severity => by cases severity <;> decide +kernel
  have hpage := finds_tokens hmark (by decide +kernel) hheadline hparts
    (.none_of_lacks hmark (lacks_footer view (by decide)))
  rwa [List.flatMap_eq_nil_iff.mpr fun _ _ => rfl, List.append_nil, List.append_nil] at hpage

/-- A reader of paragraphs finds the name of the source file in the second one. -/
theorem finds_source (hsections : ∀ s ∈ view.sections, s.ShowsFigures) :
    Finds "p".toList (readElement "p") (tokens view)
      ["Generated by benchreport", "Source: " ++ view.sourceName] := by
  have hmark : Bare "p".toList := by decide
  have hgenerated := finds_element "p" (by decide) ["Generated by benchreport"]
  have hsource := finds_element "p" (by decide) ["Source: ", view.sourceName]
  have hfooter : Finds "p".toList (readElement "p") (footer view) _ :=
    .block hmark ⟨(WellFormed.block 2 (by decide) (bareNames_ofClass _) .nil).clean, by decide⟩
      ((Finds.line hmark 3 hgenerated).append (.line hmark 3 hsource))
  have hparts : ∀ s ∈ view.sections, Finds "p".toList (readElement "p") (sectionPart s) [] :=
    fun s hs => finds_sectionPart_nil (hsections s hs) hmark (by decide +kernel)
      fun severity => by cases severity <;> decide +kernel
  have hpage := finds_tokens hmark (by decide +kernel)
    (.none_of_lacks hmark (lacks_headline view (by decide) (by decide))) hparts hfooter
  rw [List.flatMap_eq_nil_iff.mpr fun _ _ => rfl, List.nil_append, List.nil_append] at hpage
  simpa using hpage

/-! ## The page of a run -/

variable (run : Run) (table : RuleTable) (title : String) (now : Timestamp)

/-- The page of a run has exactly one row for each record, category after category and each
by time. It reads back as the record's texts, as do the title and the name of the source. -/
theorem read_render_ofRun :
    let view := View.ofRun run table title now
    let page := (render view).toList
    readRows page = (view.sections.flatMap fun s => s.rows.map fun row => row.record.texts) ∧
      readRows page = (Category.all.flatMap fun category =>
        (Summary.byTime (table.members run.records category)).map Record.texts) ∧
      (readRows page).Perm (run.records.map Record.texts) ∧
      (readRows page).length = view.totalRecords ∧
      readElements "h1" page = [title] ∧
      readElements "p" page = ["Generated by benchreport", "Source: " ++ run.sourceName] := by
  intro view page
  have hsections := View.ofRun_showsFigures run table title now
  have hfound : readRows page = view.sections.flatMap fun s => s.rows.map rowTexts :=
    (finds_rows hsections).readEach_eq
  have hrows : readRows page = Category.all.flatMap fun category =>
      (Summary.byTime (table.members run.records category)).map Record.texts :=
    hfound.trans (View.rows_ofRun run table title now fun _ => rowTexts)
  have hview : readRows page =
      view.sections.flatMap fun s => s.rows.map fun row => row.record.texts :=
    hrows.trans (View.rows_ofRun run table title now fun _ row => row.record.texts).symm
  have hrecords : (readRows page).Perm (run.records.map Record.texts) := by
    rw [hrows, ← List.map_flatMap]
    exact (View.byTime_members_perm run table).map Record.texts
  have hlength : (readRows page).length = view.totalRecords := by
    rw [hrecords.length_eq, List.length_map]
    rfl
  exact ⟨hview, hrows, hrecords, hlength, (finds_title hsections).readEach_eq,
    (finds_source hsections).readEach_eq⟩

end TimingReport.Page
