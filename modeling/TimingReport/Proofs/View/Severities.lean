import TimingReport.Proofs.Amount.Tiers
import TimingReport.Proofs.Load.Entries
import TimingReport.Proofs.View.Sections

/-!
# Tables from good to bad

The rows of a table ascend in real time. Loaded times are numbers that are not below zero, so
their total order is that of the numbers, and neither the severity nor the unit that a row is
shown in falls from one row to the next.
-/

namespace TimingReport

open Amount

/-! ## Rows -/

/-- What a row shows follows from the tier of its real time. -/
theorem Row.shownUnit?_ofRecord (record : Record) :
    shownUnit? (ofRecord record).realTime = some (unitOfTier (time.tier record.realTime)) :=
  shownUnit?_durationText record.realTime

/-- A row is good exactly if it is shown in nanoseconds or microseconds. -/
theorem Row.severity_eq_good_iff {record : Record} (hrecord : ¬record.realTime.isNaN) :
    (ofRecord record).severity = .good ↔
      shownUnit? (ofRecord record).realTime = some .nanoseconds ∨
        shownUnit? (ofRecord record).realTime = some .microseconds := by
  rw [Row.shownUnit?_ofRecord, Option.some_inj, Option.some_inj, ← le_one_iff_unitOfTier]
  exact Severity.ofTime_eq_good_iff hrecord

/-- A row that is shown in seconds is dangerous. -/
theorem Row.severity_eq_danger {record : Record}
    (hseconds : shownUnit? (ofRecord record).realTime = some .seconds) :
    (ofRecord record).severity = .danger := by
  rw [Row.shownUnit?_ofRecord, Option.some_inj] at hseconds
  exact Severity.ofTime_eq_danger (three_le_of_unitOfTier hseconds)

/-! ## Tables -/

/-- Down the rows of a table neither the severity nor the unit of the real time falls, and the
two agree about which rows are good and about those in seconds. -/
structure Section.Worsens (s : Section) : Prop where
  severity : s.rows.Pairwise fun upper lower => upper.severity.rank ≤ lower.severity.rank
  unit : s.rows.Pairwise fun upper lower => ∃ first second,
    shownUnit? upper.realTime = some first ∧ shownUnit? lower.realTime = some second ∧
      first.nanos ≤ second.nanos
  shown : ∀ row ∈ s.rows, (shownUnit? row.realTime).isSome
  good_iff : ∀ row ∈ s.rows, row.severity = .good ↔
    shownUnit? row.realTime = some .nanoseconds ∨ shownUnit? row.realTime = some .microseconds
  danger : ∀ row ∈ s.rows, shownUnit? row.realTime = some .seconds → row.severity = .danger

theorem Section.worsens_ofSummary {summary : Summary}
    (hnumbers : ∀ record ∈ summary.members, ¬record.realTime.isNaN) :
    (ofSummary summary).Worsens := by
  have hnumbers : ∀ record ∈ Summary.byTime summary.members, ¬record.realTime.isNaN :=
    fun record hrecord => hnumbers record ((Summary.byTime_perm _).mem_iff.mp hrecord)
  have hsorted : (Summary.byTime summary.members).Pairwise fun upper lower =>
      upper.realTime.le lower.realTime := by
    refine (Summary.byTime_pairwise _).imp_of_mem ?_
    exact fun hupper hlower => Binary64.le_of_totalLe (hnumbers _ hupper) (hnumbers _ hlower)
  constructor
  · exact List.pairwise_map.mpr (hsorted.imp Severity.rank_ofTime_le)
  · refine List.pairwise_map.mpr (hsorted.imp fun hle => ?_)
    exact ⟨_, _, Row.shownUnit?_ofRecord _, Row.shownUnit?_ofRecord _,
      nanos_unitOfTier_mono (Scale.tier_mono (by decide) hle)⟩
  · refine List.forall_mem_map.mpr fun record _ => ?_
    rw [Row.shownUnit?_ofRecord, Option.isSome_some]
  · exact List.forall_mem_map.mpr fun record hrecord =>
      Row.severity_eq_good_iff (hnumbers record hrecord)
  · exact List.forall_mem_map.mpr fun _ _ => Row.severity_eq_danger

namespace View

variable (table : RuleTable) (title : String) (now : Timestamp)

/-- Every table of a report that was loaded goes from good to bad, whether the report was given
as a text or as bytes. -/
theorem sections_worsen {source : String} {symbols : Json.Symbols} {run : Run}
    (hload : Load.ofSymbols source symbols = .ok run) :
    ∀ s ∈ (ofRun run table title now).sections, s.Worsens := by
  intro s hs
  obtain ⟨_, summary, hsummary, rfl⟩ := exists_summary_of_mem run table title now hs
  refine Section.worsens_ofSummary fun record hrecord => ?_
  rw [(Summary.eq_of_ofRecords? hsummary).2] at hrecord
  obtain ⟨htiming, -⟩ :=
    Load.isTiming_of_ofSymbols hload record (List.mem_of_mem_filter hrecord)
  exact Bool.eq_false_iff.mp (Binary64.isNaN_of_isFinite htiming.1).1

/-- A negative zero and two seconds, which are given the other way round. -/
theorem sections_worsen_seconds :
    let text := "\x7b\"benchmarks\":[\x7b\"real_time\":2e9\x7d,\x7b\"real_time\":-0.0\x7d]\x7d"
    let now : Timestamp := ⟨2024, 5, 1, 12, 0, 0, 0⟩
    ∃ run, Load.ofText "results.json" text = .ok run ∧ run.records.length = 2 ∧
      ∀ s ∈ (ofRun run .standard standardTitle now).sections, s.Worsens := by
  intro text now
  let run : Run := {
    machine := {}
    records := [
      { name := unknownName, realTime := .ofNat 2_000_000_000 },
      { name := unknownName, realTime := .zero true }]
    source := "results.json" }
  have hload : (Load.ofText "results.json" text).toOption = some run := by decide +kernel
  have hload := Outcome.toOption_eq_some_iff.mp hload
  exact ⟨run, hload, rfl, sections_worsen .standard standardTitle now hload⟩

end View

end TimingReport
