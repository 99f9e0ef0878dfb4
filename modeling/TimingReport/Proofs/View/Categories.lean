import Mathlib.Algebra.BigOperators.Group.List.Basic
import Mathlib.Algebra.GroupWithZero.Nat
import TimingReport.Proofs.View.Sections

/-!
# Sections and categories

The sections of a run's view are the categories that its records fall into, each once and
in report order. No record is lost, doubled or filed under another category, so the counts
of the sections add up to the number of records.
-/

namespace TimingReport

/-- The rows of a section are the records of its summary by time. -/
theorem Section.map_record_rows (summary : Summary) :
    (ofSummary summary).rows.map (·.record) = Summary.byTime summary.members := by
  have hrecord : Row.record ∘ Row.ofRecord = id := rfl
  rw [ofSummary, List.map_map, hrecord, List.map_id]

namespace View

variable (run : Run) (table : RuleTable) (title : String) (now : Timestamp)

/-- A category has a section exactly if some record belongs to it. -/
theorem isSome_sectionOf? (records : List Record) (category : Category) :
    (sectionOf? (.ofRecords table records) category).isSome ↔
      ∃ record ∈ records, table.categoryOf record.name = category := by
  rw [← Option.ne_none_iff_isSome, ne_eq, sectionOf?, Option.map_eq_none_iff,
    Summary.ofRecords?_eq_none_iff]
  simp [Classification.members_ofRecords, RuleTable.members, List.filter_eq_nil_iff]

/-- The section of a category is about that category and its records. -/
theorem eq_of_sectionOf? {records : List Record} {category : Category} {s : Section}
    (hsection : sectionOf? (.ofRecords table records) category = some s) :
    s.category = category ∧ s.summary.members = table.members records category := by
  obtain ⟨summary, hsummary, rfl⟩ := Option.map_eq_some_iff.mp hsection
  rw [Classification.members_ofRecords] at hsummary
  exact Summary.eq_of_ofRecords? hsummary

/-- A section counts its records. -/
theorem count_of_sectionOf? {records : List Record} {category : Category} {s : Section}
    (hsection : sectionOf? (.ofRecords table records) category = some s) :
    s.summary.timings.count = s.summary.members.length ∧
      s.count = toString s.summary.members.length := by
  obtain ⟨summary, hsummary, rfl⟩ := Option.map_eq_some_iff.mp hsection
  have hcount := Summary.count_of_ofRecords? hsummary
  exact ⟨hcount, congrArg toString hcount⟩

/-- The rows of a section are its records by time. -/
theorem records_of_sectionOf? {records : List Record} {category : Category} {s : Section}
    (hsection : sectionOf? (.ofRecords table records) category = some s) :
    s.rows.map (·.record) = Summary.byTime s.summary.members := by
  obtain ⟨summary, _, rfl⟩ := Option.map_eq_some_iff.mp hsection
  exact Section.map_record_rows summary

/-- Every section of a view is the section of its category. -/
theorem sectionOf?_of_mem {s : Section} (hs : s ∈ (ofRun run table title now).sections) :
    sectionOf? (.ofRecords table run.records) s.category = some s := by
  obtain ⟨category, _, hsection⟩ := List.mem_filterMap.mp hs
  rwa [(eq_of_sectionOf? table hsection).1]

theorem mem_sections_iff {s : Section} : s ∈ (ofRun run table title now).sections ↔
    sectionOf? (.ofRecords table run.records) s.category = some s := by
  refine ⟨sectionOf?_of_mem run table title now, fun hsection => ?_⟩
  exact List.mem_filterMap.mpr ⟨s.category, by cases s.category <;> decide, hsection⟩

theorem map_category_sections :
    (ofRun run table title now).sections.map Section.category =
      Category.all.filter fun category =>
        ∃ record ∈ run.records, table.categoryOf record.name = category := by
  have hcategory : ∀ category,
      (sectionOf? (.ofRecords table run.records) category).map Section.category =
        if ∃ record ∈ run.records, table.categoryOf record.name = category
        then some category else none := by
    intro category
    have hsome := isSome_sectionOf? table run.records category
    cases hsection : sectionOf? (.ofRecords table run.records) category with
    | none =>
        rw [hsection] at hsome
        rw [if_neg fun hrecord => nomatch hsome.mpr hrecord]
        rfl
    | some s =>
        rw [hsection] at hsome
        rw [if_pos (hsome.mp rfl), Option.map_some, (eq_of_sectionOf? table hsection).1]
  rw [ofRun, List.map_filterMap, funext hcategory, ← List.filterMap_eq_filter]
  congr 1
  funext category
  simp [Option.guard]

/-- The records of all rows are those of the run. -/
theorem records_rows_perm :
    ((ofRun run table title now).sections.flatMap fun s => s.rows.map (·.record)).Perm
      run.records := by
  rw [rows_ofRun run table title now fun _ row => row.record]
  simpa [Row.ofRecord] using byTime_members_perm run table

theorem sum_count_sections :
    ((ofRun run table title now).sections.map (·.summary.timings.count)).sum =
      run.records.length := by
  have hcount : (ofRun run table title now).sections.map (·.summary.timings.count) =
      (ofRun run table title now).sections.map fun s => (s.rows.map (·.record)).length := by
    refine List.map_congr_left fun s hs => ?_
    have hsection := sectionOf?_of_mem run table title now hs
    rw [(count_of_sectionOf? table hsection).1, records_of_sectionOf? table hsection]
    exact (Summary.byTime_perm _).length_eq.symm
  rw [hcount, ← List.length_flatMap]
  exact (records_rows_perm run table title now).length_eq

theorem sectionFor?_ofRun (category : Category) :
    (ofRun run table title now).sectionFor? category =
      sectionOf? (.ofRecords table run.records) category := by
  cases hfound : (ofRun run table title now).sectionFor? category with
  | some s =>
      obtain rfl : s.category = category := by simpa using List.find?_some hfound
      exact (sectionOf?_of_mem run table title now (List.mem_of_find?_eq_some hfound)).symm
  | none =>
      cases hsection : sectionOf? (.ofRecords table run.records) category with
      | none => rfl
      | some s =>
          -- the section would have been found, since it is one of the view's
          obtain ⟨rfl, _⟩ := eq_of_sectionOf? table hsection
          have hmem := (mem_sections_iff run table title now).mpr hsection
          simpa using List.find?_eq_none.mp hfound s hmem

/-- The sections of a view divide the records of its run by category: every category with
records has one section, in report order, which holds its records in input order; the rows
are the records, each as often as it is given; and the counts add up. -/
theorem ofRun_divides_records :
    let view := ofRun run table title now
    view.sections.map Section.category =
        ([.core, .network, .config, .memory, .other] : List Category).filter (fun category =>
          ∃ record ∈ run.records, table.categoryOf record.name = category) ∧
      (∀ s ∈ view.sections,
        s.summary.members =
            run.records.filter (fun record => table.categoryOf record.name = s.category) ∧
          (s.rows.map (·.record)).Perm s.summary.members ∧
          s.count = toString s.summary.members.length) ∧
      (view.sections.flatMap fun s => s.rows.map (·.record)).Perm run.records ∧
      (view.sections.map (·.summary.timings.count)).sum = view.totalRecords ∧
      (Classification.ofRecords table run.records).size = view.totalRecords ∧
      ∀ category,
        ((∃ record ∈ run.records, table.categoryOf record.name = category) →
          ∃ s ∈ view.sections, s.category = category ∧ view.sectionFor? category = some s) ∧
        ((¬∃ record ∈ run.records, table.categoryOf record.name = category) →
          view.sectionFor? category = none) := by
  intro view
  refine ⟨map_category_sections run table title now, ?_,
    records_rows_perm run table title now, sum_count_sections run table title now,
    Classification.size_ofRecords table run.records, ?_⟩
  · intro s hs
    have hsection := sectionOf?_of_mem run table title now hs
    refine ⟨(eq_of_sectionOf? table hsection).2, ?_, (count_of_sectionOf? table hsection).2⟩
    rw [records_of_sectionOf? table hsection]
    exact Summary.byTime_perm _
  · intro category
    rw [sectionFor?_ofRun, ← isSome_sectionOf?]
    constructor
    · intro hsome
      obtain ⟨s, hsection⟩ := Option.isSome_iff_exists.mp hsome
      obtain ⟨rfl, _⟩ := eq_of_sectionOf? table hsection
      exact ⟨s, (mem_sections_iff run table title now).mpr hsection, rfl, hsection⟩
    · exact Option.not_isSome_iff_eq_none.mp

end View

end TimingReport
