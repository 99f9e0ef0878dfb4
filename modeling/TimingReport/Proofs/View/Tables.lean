import TimingReport.Proofs.View.Categories

/-!
# Tables and the summaries above them

A summary sorts the bare real times of a category, and its table sorts the records. Both come
out in one order: the first row has the least time and the last row the greatest, bit for bit,
so the texts above a table are found in it.
-/

namespace TimingReport

/-! ## Records by time -/

namespace Summary

variable {records arranged : List Record}

/-- The same records in ascending order of real time, where those whose times have the same
bits keep their order. -/
structure Arranges (records arranged : List Record) : Prop where
  perm : arranged.Perm records
  ascending : arranged.Pairwise fun a b => a.realTime.totalLe b.realTime
  ties : ∀ bits, arranged.filter (·.realTime.toBits = bits) =
    records.filter (·.realTime.toBits = bits)

/-- There is exactly one such order. -/
theorem arranges_iff : Arranges records arranged ↔ arranged = byTime records := by
  constructor
  · intro harranges
    refine StableSort.eq_of_sorted byTime_ordersBy harranges.ascending
      (byTime_pairwise records) fun bits => ?_
    exact (harranges.ties bits).trans (StableSort.fiber_mergeSort byTime_ordersBy bits records).symm
  · rintro rfl
    exact ⟨byTime_perm records, byTime_pairwise records,
      fun bits => StableSort.fiber_mergeSort byTime_ordersBy bits records⟩

/-- The times of sorted records are the sorted times. -/
theorem map_realTime_byTime (records : List Record) :
    (byTime records).map (·.realTime) = Timings.sort (records.map (·.realTime)) :=
  List.map_mergeSort fun _ _ _ _ => rfl

end Summary

/-! ## Sections -/

/-- The row is that of a record with the given time, and it shows the text. -/
structure Row.Shows (row : Row) (time : Binary64) (text : String) : Prop where
  toBits : row.record.realTime.toBits = time.toBits
  realTime : row.realTime = text

namespace Section

/-- The table of a section holds the records by time and agrees with the summary above it. -/
structure Agrees (s : Section) (records : List Record) : Prop where
  members : s.summary.members = records
  byTime : ∀ arranged, Summary.Arranges records arranged ↔
    arranged = Summary.byTime s.summary.members
  rows : s.rows.map (·.record) = Summary.byTime s.summary.members
  first : ∃ row, s.rows.head? = some row ∧ row.Shows s.summary.timings.least s.fastest
  last : ∃ row, s.rows.getLast? = some row ∧ row.Shows s.summary.timings.greatest s.slowest
  count : s.summary.timings.count = s.rows.length ∧ s.count = toString s.rows.length

theorem agrees_ofSummary {category : Category} {records : List Record} {summary : Summary}
    (hsummary : Summary.ofRecords? category records = some summary) :
    (ofSummary summary).Agrees records := by
  have hcount := Summary.count_of_ofRecords? hsummary
  obtain ⟨timings, htimings, rfl⟩ := Option.map_eq_some_iff.mp hsummary
  have hread := Timings.readOff_of_ofList? htimings
  rw [← Summary.map_realTime_byTime] at hread
  have hleast := hread.least
  have hgreatest := hread.greatest
  rw [List.head?_map, Option.map_eq_some_iff] at hleast
  rw [List.getLast?_map, Option.map_eq_some_iff] at hgreatest
  obtain ⟨first, hfirst, hleast⟩ := hleast
  obtain ⟨last, hlast, hgreatest⟩ := hgreatest
  have hrows : (ofSummary ⟨category, timings, records⟩).rows.length = records.length :=
    (List.length_map _).trans (Summary.byTime_perm records).length_eq
  refine ⟨rfl, fun _ => Summary.arranges_iff, map_record_rows _, ⟨Row.ofRecord first, ?_, ?_⟩,
    ⟨Row.ofRecord last, ?_, ?_⟩, ?_⟩
  · rw [ofSummary, List.head?_map, hfirst, Option.map_some]
  · exact ⟨congrArg Binary64.toBits hleast, congrArg durationText hleast⟩
  · rw [ofSummary, List.getLast?_map, hlast, Option.map_some]
  · exact ⟨congrArg Binary64.toBits hgreatest, congrArg durationText hgreatest⟩
  · rw [hrows]
    exact ⟨hcount, congrArg toString hcount⟩

end Section

/-- Every category with records has a summary whose section agrees with it, and so do the
sections of every view: the rows are the category's records in the one order by time that keeps
ties as they were given, they begin with the fastest and end with the slowest record that the
summary names, and there are as many as it counts. -/
theorem View.sections_agree (run : Run) (table : RuleTable) (title : String) (now : Timestamp) :
    (∀ category records, records ≠ [] → ∃ summary,
      Summary.ofRecords? category records = some summary ∧
        (Section.ofSummary summary).Agrees records) ∧
    ∀ s ∈ (ofRun run table title now).sections,
      s.Agrees (run.records.filter fun record => table.categoryOf record.name = s.category) := by
  constructor
  · intro category records hne
    obtain ⟨summary, hsummary⟩ :=
      Option.ne_none_iff_exists'.mp (mt Summary.ofRecords?_eq_none_iff.mp hne)
    exact ⟨summary, hsummary, Section.agrees_ofSummary hsummary⟩
  · intro s hs
    obtain ⟨_, summary, hsummary, rfl⟩ := exists_summary_of_mem run table title now hs
    obtain ⟨rfl, -⟩ := Summary.eq_of_ofRecords? hsummary
    exact Section.agrees_ofSummary hsummary

end TimingReport
