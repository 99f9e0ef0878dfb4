import TimingReport.Job
import TimingReport.Proofs.View.Categories

/-!
# Records of other categories

A record belongs to the section of its category alone. Wherever it is inserted among the
records of a run, the sections of all other categories stay as they are, absent ones
included, and so does the part that a document has for each of them.
-/

namespace TimingReport

/-! ## Parts of documents -/

/-- What a document shows of a section. -/
def Format.part : Format → Section → String
  | html, s => Markup.render (Page.sectionPart s)
  | markdown, s => String.join ((Markdown.sectionLines s).map (· ++ "\n"))
  | csv, s => String.ofList ((s.rows.map (Csv.fields s.category)).flatMap Csv.recordText)

theorem join_map_flatMap {α β : Type} (members : List α) (pieces : α → List β)
    (text : β → String) :
    String.join ((members.flatMap pieces).map text) =
      String.join (members.map fun a => String.join ((pieces a).map text)) := by
  induction members with
  | nil => rfl
  | cons a rest ih =>
      rw [List.flatMap_cons, List.map_append, String.join_append, ih, List.map_cons,
        String.join_cons]

namespace Page

open Markup

/-- The tokens in front of the sections. -/
def opening (view : View) : List Token :=
  line 0 [.doctype] ++ line 0 [.opening "html" [("lang", "en")]] ++ head view
    ++ line 0 [.opening "body" []] ++ line 1 [.opening "div" (ofClass "container")]
    ++ line 2 (element "h1" [] [.text view.title]) ++ overview view

/-- The tokens behind the sections. -/
def closing (view : View) : List Token :=
  footer view ++ line 1 [.closing "div"] ++ line 0 [.closing "body"] ++ line 0 [.closing "html"]

theorem tokens_eq (view : View) :
    tokens view = opening view ++ view.sections.flatMap sectionPart ++ closing view := by
  simp only [tokens, body, block, opening, closing, List.append_assoc]

end Page

theorem Csv.ofList_rows (sections : List Section) :
    String.ofList ((sections.flatMap fun s => s.rows.map (fields s.category)).flatMap recordText) =
      String.join (sections.map (Format.part .csv)) := by
  induction sections with
  | nil => rfl
  | cons s rest ih =>
      rw [List.flatMap_cons, List.flatMap_append, String.ofList_append, ih, List.map_cons,
        String.join_cons]
      rfl

/-- The sections of a view stand in its document one behind the other. Nothing else in the
document depends on them. -/
theorem Format.render_parts (format : Format) (view : View) :
    ∃ (top : Nat → String) (bottom : String), ∀ totalRecords sections,
      format.render { view with totalRecords, sections } =
        top totalRecords ++ String.join (sections.map format.part) ++ bottom := by
  cases format with
  | html =>
      refine ⟨fun totalRecords => Markup.render (Page.opening { view with totalRecords }),
        Markup.render (Page.closing view), fun totalRecords sections => ?_⟩
      rw [render, Page.render, Page.tokens_eq]
      simp only [Markup.render, List.map_append, String.join_append, join_map_flatMap]
      rfl
  | markdown =>
      let text : List String → String := fun lines => String.join (lines.map (· ++ "\n"))
      refine ⟨fun totalRecords => text (Markdown.overviewLines { view with totalRecords }),
        text ["---", "", "*Source: " ++ view.sourceName ++ "*"], fun totalRecords sections => ?_⟩
      simp only [render, Markdown.render, Markdown.lines, List.map_append, String.join_append,
        join_map_flatMap]
      rfl
  | csv =>
      refine ⟨fun _ => String.ofList (Csv.recordText Csv.header), "",
        fun totalRecords sections => ?_⟩
      rw [render, Csv.render, Csv.records, List.flatMap_cons, String.ofList_append,
        Csv.ofList_rows, String.append_empty]

/-! ## Sections -/

/-- A record does not count as a member of other categories. -/
theorem RuleTable.members_insert {table : RuleTable} {record : Record} {category : Category}
    (hother : table.categoryOf record.name ≠ category) (before after : List Record) :
    table.members (before ++ record :: after) category =
      table.members (before ++ after) category := by
  simp [members, hother]

theorem View.sectionOf?_insert {table : RuleTable} {record : Record} {category : Category}
    (hother : table.categoryOf record.name ≠ category) (before after : List Record) :
    sectionOf? (.ofRecords table (before ++ record :: after)) category =
      sectionOf? (.ofRecords table (before ++ after)) category := by
  simp only [sectionOf?, Classification.members_ofRecords, RuleTable.members_insert hother]

/-- The sections of some categories are those of these categories that have records. -/
theorem View.filter_sections (run : Run) (table : RuleTable) (title : String) (now : Timestamp)
    (wanted : Category → Bool) :
    ((ofRun run table title now).sections.filter fun s => wanted s.category) =
      (Category.all.filter wanted).filterMap (sectionOf? (.ofRecords table run.records)) := by
  rw [ofRun, List.filter_filterMap, List.filterMap_filter]
  refine List.filterMap_congr fun category _ => ?_
  cases hsection : sectionOf? (.ofRecords table run.records) category with
  | none => simp
  | some s => simp [Option.filter, (eq_of_sectionOf? table hsection).1]

/-- A record that is inserted among others leaves the sections of all categories but its own
as they are, with their order. A document is made of the parts of its sections, one behind
the other, between a top that depends on the number of records alone and a bottom; so its
parts for these categories stay the same as well. -/
theorem Job.parts_insert (job : Job) (now : Timestamp) (machine : Machine) (source : String)
    (before after : List Record) (record : Record) :
    let own := job.table.categoryOf record.name
    let run (records : List Record) : Run := { machine, records, source }
    let shown := job.view (run (before ++ after)) now
    let wider := job.view (run (before ++ record :: after)) now
    (∀ category, own ≠ category → wider.sectionFor? category = shown.sectionFor? category) ∧
      wider.sections.filter (·.category ≠ own) = shown.sections.filter (·.category ≠ own) ∧
      ∃ (top : Nat → String) (bottom : String), ∀ records,
        job.document (run records) now = top records.length ++
          String.join ((job.view (run records) now).sections.map job.format.part) ++ bottom := by
  intro own run shown wider
  have hsection : ∀ category, own ≠ category →
      View.sectionOf? (.ofRecords job.table (before ++ record :: after)) category =
        View.sectionOf? (.ofRecords job.table (before ++ after)) category :=
    fun category hother => View.sectionOf?_insert hother before after
  have hfound := fun records => View.sectionFor?_ofRun (run records) job.table job.title now
  have hfilter := fun records =>
    View.filter_sections (run records) job.table job.title now fun category => category ≠ own
  refine ⟨fun category hother => ?_, ?_, ?_⟩
  · exact (hfound _ category).trans ((hsection category hother).trans (hfound _ category).symm)
  · refine (hfilter _).trans (Eq.trans ?_ (hfilter _).symm)
    refine List.filterMap_congr fun category hcategory => hsection category ?_
    have hother : category ≠ own := of_decide_eq_true (List.mem_filter.mp hcategory).2
    exact hother.symm
  · -- the view of any records differs from this one in its count and its sections alone
    obtain ⟨top, bottom, hrender⟩ := job.format.render_parts (job.view (run []) now)
    exact ⟨top, bottom, fun records => hrender records.length _⟩

end TimingReport
