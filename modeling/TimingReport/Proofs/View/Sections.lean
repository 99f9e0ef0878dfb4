import Mathlib.Data.List.Perm.Basic
import TimingReport.View
import TimingReport.Proofs.Amount.Figures
import TimingReport.Proofs.Category.Partition
import TimingReport.Proofs.Timings

/-!
# The sections of a view

The sections of a run's view are the summaries of its nonempty categories. Their rows are
therefore the records of one category after the other, each in ascending order of real
time, and every amount that they show is made of figures.
-/

namespace TimingReport

namespace View

variable (run : Run) (table : RuleTable) (title : String) (now : Timestamp)

/-! ## Rows -/

/-- The rows of a category's section are its records by time; without records there is
neither a section nor a row. -/
theorem rows_sectionOf? {β : Type} (classification : Classification) (category : Category)
    (shown : Category → Row → β) :
    ((sectionOf? classification category).toList.flatMap fun s =>
        s.rows.map (shown s.category)) =
      (Summary.byTime (classification.members category)).map fun record =>
        shown category (Row.ofRecord record) := by
  unfold sectionOf?
  cases hsummary : Summary.ofRecords? category (classification.members category) with
  | none =>
      rw [Summary.ofRecords?_eq_none_iff.mp hsummary, Summary.byTime_nil]
      rfl
  | some summary =>
      obtain ⟨rfl, hmembers⟩ := Summary.eq_of_ofRecords? hsummary
      rw [← hmembers]
      simp [Section.ofSummary, Section.category]

/-- Every section of a view is that of a category with records. -/
theorem exists_summary_of_mem {s : Section} (hs : s ∈ (ofRun run table title now).sections) :
    ∃ category summary,
      Summary.ofRecords? category (table.members run.records category) = some summary ∧
        Section.ofSummary summary = s := by
  obtain ⟨category, -, hsection⟩ := List.mem_filterMap.mp hs
  rw [sectionOf?, Classification.members_ofRecords] at hsection
  exact ⟨category, Option.map_eq_some_iff.mp hsection⟩

/-- All rows of a view, section after section. -/
theorem rows_ofRun {β : Type} (shown : Category → Row → β) :
    ((ofRun run table title now).sections.flatMap fun s => s.rows.map (shown s.category)) =
      Category.all.flatMap fun category =>
        (Summary.byTime (table.members run.records category)).map fun record =>
          shown category (Row.ofRecord record) := by
  rw [ofRun, List.filterMap_eq_flatMap_toList, List.flatMap_assoc]
  refine List.flatMap_congr fun category _ => ?_
  rw [rows_sectionOf?, Classification.members_ofRecords]

/-- Every record has one row, and there are no others. -/
theorem byTime_members_perm :
    (Category.all.flatMap fun category =>
      Summary.byTime (table.members run.records category)).Perm run.records :=
  (List.Perm.flatMap_left _ fun _ _ => Summary.byTime_perm _).trans
    (table.members_perm run.records)

/-- The rows of a view are those of the run's records. -/
theorem mem_rows_iff {row : Row} :
    (∃ s ∈ (ofRun run table title now).sections, row ∈ s.rows) ↔
      ∃ record ∈ run.records, Row.ofRecord record = row := by
  have hrows := rows_ofRun run table title now fun _ row => row
  simp only [List.map_id'] at hrows
  rw [← List.mem_flatMap, hrows, ← List.map_flatMap, List.mem_map]
  simp only [(byTime_members_perm run table).mem_iff]

end View

/-! ## Figures -/

open Amount

/-- All amounts of a row are figures. -/
structure Row.ShowsFigures (row : Row) : Prop where
  realTime : Figures row.realTime.toList
  cpuTime : Figures row.cpuTime.toList
  iterations : Figures row.iterations.toList
  throughput : Figures row.throughput.toList

theorem Row.ofRecord_showsFigures (record : Record) : (ofRecord record).ShowsFigures where
  realTime := figures_durationText _
  cpuTime := figures_durationText _
  iterations := figures_countText _
  throughput := figures_throughputText _

/-- All amounts of a section are figures. -/
structure Section.ShowsFigures (s : Section) : Prop where
  count : Figures s.count.toList
  average : Figures s.average.toList
  median : Figures s.median.toList
  fastest : Figures s.fastest.toList
  slowest : Figures s.slowest.toList
  rows : ∀ row ∈ s.rows, row.ShowsFigures

theorem Section.ofSummary_showsFigures (summary : Summary) :
    (ofSummary summary).ShowsFigures where
  count := figures_toString _
  average := figures_durationText _
  median := figures_durationText _
  fastest := figures_durationText _
  slowest := figures_durationText _
  rows := by
    intro row hrow
    obtain ⟨record, _, rfl⟩ := List.mem_map.mp hrow
    exact Row.ofRecord_showsFigures record

theorem View.ofRun_showsFigures (run : Run) (table : RuleTable) (title : String)
    (now : Timestamp) : ∀ s ∈ (ofRun run table title now).sections, s.ShowsFigures := by
  intro s hs
  obtain ⟨_, summary, _, rfl⟩ := exists_summary_of_mem run table title now hs
  exact Section.ofSummary_showsFigures summary

end TimingReport
