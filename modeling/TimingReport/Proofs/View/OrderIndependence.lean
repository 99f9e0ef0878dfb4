import Mathlib.Data.List.Perm.Basic
import TimingReport.Job
import TimingReport.Proofs.Category.Partition
import TimingReport.Proofs.Timings

/-!
# Documents and the order of records

Records of one category whose real times have the same bits are ties, and the sort of a
section keeps their order. Nothing else about the order of a run's records reaches a
document: two runs with the same ties have the same document in every format.
-/

namespace TimingReport

/-! ## Ties -/

namespace RuleTable

/-- The records of a category whose real time has the given bits, in input order. -/
def ties (table : RuleTable) (records : List Record) (category : Category) (bits : UInt64) :
    List Record :=
  (table.members records category).filter (·.realTime.toBits = bits)

/-- Two lists of records have the same ties, each in the same order. -/
def SameTies (table : RuleTable) (first second : List Record) : Prop :=
  ∀ category bits, table.ties first category bits = table.ties second category bits

end RuleTable

namespace RuleTable.SameTies

variable {table : RuleTable} {first second : List Record}

/-- Ties decide the order of a section's rows. -/
theorem byTime_members (hties : table.SameTies first second) (category : Category) :
    Summary.byTime (table.members first category) =
      Summary.byTime (table.members second category) :=
  (StableSort.mergeSort_eq_iff Summary.byTime_ordersBy).mpr (hties category)

theorem members_perm (hties : table.SameTies first second) (category : Category) :
    (table.members first category).Perm (table.members second category) :=
  StableSort.perm_of_fiber_eq Summary.byTime_ordersBy (hties category)

theorem length_eq (hties : table.SameTies first second) : first.length = second.length :=
  calc
    first.length = (Category.all.flatMap (table.members first)).length :=
      (table.members_perm first).length_eq.symm
    _ = (Category.all.flatMap (table.members second)).length :=
      (List.Perm.flatMap_left _ fun category _ => hties.members_perm category).length_eq
    _ = second.length := (table.members_perm second).length_eq

/-- Neighbours of different categories or with different bits may change places. -/
theorem swap {left right : Record}
    (hdistinct : table.categoryOf left.name ≠ table.categoryOf right.name ∨
      left.realTime.toBits ≠ right.realTime.toBits) (before after : List Record) :
    table.SameTies (before ++ left :: right :: after) (before ++ right :: left :: after) := by
  intro category bits
  simp only [ties, members, List.filter_append, List.filter_filter, List.append_cancel_left_eq]
  by_cases hleft : left.realTime.toBits = bits ∧ table.categoryOf left.name = category
  · have hright : ¬(right.realTime.toBits = bits ∧ table.categoryOf right.name = category) := by
      rintro ⟨hbits, hcategory⟩
      rcases hdistinct with hne | hne
      · exact hne (hleft.2.trans hcategory.symm)
      · exact hne (hleft.1.trans hbits.symm)
    simp [hleft, hright]
  · simp [List.filter_cons, hleft]

end RuleTable.SameTies

/-! ## Views -/

/-- The section with its records in the order of its rows. -/
def Section.arranged (s : Section) : Section :=
  { s with summary := { s.summary with members := Summary.byTime s.summary.members } }

/-- The view with the records of each section in the order of its rows. -/
def View.arranged (view : View) : View :=
  { view with sections := view.sections.map Section.arranged }

/-- No format shows the input order that a section's summary keeps. -/
theorem Format.render_arranged (format : Format) (view : View) :
    format.render view.arranged = format.render view := by
  cases format with
  | html =>
      simp only [render, Page.render, Page.tokens, Page.body, View.arranged, List.flatMap_map]
      rfl
  | markdown =>
      simp only [render, Markdown.render, Markdown.lines, View.arranged, List.flatMap_map]
      rfl
  | csv =>
      simp only [render, Csv.render, Csv.records, View.arranged, List.flatMap_map]
      rfl

namespace View

theorem sectionOf?_arranged {table : RuleTable} {first second : List Record}
    (hties : table.SameTies first second) (category : Category) :
    (sectionOf? (.ofRecords table first) category).map Section.arranged =
      (sectionOf? (.ofRecords table second) category).map Section.arranged := by
  have htimings : Timings.ofList? ((table.members first category).map (·.realTime)) =
      Timings.ofList? ((table.members second category).map (·.realTime)) :=
    Timings.ofList?_eq_of_perm ((hties.members_perm category).map _)
  -- statistics need the same records in any order; only the rows need the ties
  have hrows := hties.byTime_members category
  simp only [sectionOf?, Summary.ofRecords?, Classification.members_ofRecords, htimings,
    Option.map_map]
  congr 1
  funext timings
  simp [Section.arranged, Section.ofSummary, hrows]

theorem ofRun_arranged {table : RuleTable} {run other : Run}
    (hmachine : run.machine = other.machine) (hsource : run.source = other.source)
    (hties : table.SameTies run.records other.records) (title : String) (now : Timestamp) :
    (ofRun run table title now).arranged = (ofRun other table title now).arranged := by
  have hsections : ((Category.all.filterMap (sectionOf? (.ofRecords table run.records))).map
        Section.arranged) =
      ((Category.all.filterMap (sectionOf? (.ofRecords table other.records))).map
        Section.arranged) := by
    rw [List.map_filterMap, List.map_filterMap]
    exact List.filterMap_congr fun category _ => sectionOf?_arranged hties category
  simp only [ofRun, arranged, hsections, Run.sourceName, hmachine, hsource, hties.length_eq]

end View

/-! ## Documents -/

/-- Two runs on one machine, from one source and with the same ties have the same
document, whatever the order of their records is otherwise. -/
theorem Job.document_eq_of_sameTies (job : Job) (now : Timestamp) {run other : Run}
    (hmachine : run.machine = other.machine) (hsource : run.source = other.source)
    (hties : job.table.SameTies run.records other.records) :
    job.document run now = job.document other now :=
  calc
    job.document run now = job.format.render (job.view run now).arranged :=
      (job.format.render_arranged _).symm
    _ = job.format.render (job.view other now).arranged :=
      congrArg job.format.render
        (View.ofRun_arranged hmachine hsource hties job.title now)
    _ = job.document other now := job.format.render_arranged _

/-- Two ties keep their order while a negative zero moves past one of them. -/
theorem Job.document_eq_of_sameTies_swapped :
    let first : Record := { name := "BM_Config_Load", realTime := .nan }
    let second : Record := { name := "BM_Config_Save", realTime := .zero true }
    let third : Record := { name := "BM_Config_Parse", realTime := .nan }
    let run : Run := { records := [first, second, third], source := "results.json" }
    let other : Run := { records := [second, first, third], source := "results.json" }
    let now : Timestamp := ⟨2024, 5, 1, 12, 0, 0, 0⟩
    run.machine = other.machine ∧ run.source = other.source ∧
      Job.standard.table.SameTies run.records other.records ∧
      Job.standard.document run now = Job.standard.document other now := by
  intro first second third run other now
  have hties : Job.standard.table.SameTies run.records other.records :=
    RuleTable.SameTies.swap (.inr (by decide)) [] [third]
  exact ⟨rfl, rfl, hties, Job.standard.document_eq_of_sameTies now rfl rfl hties⟩

end TimingReport
