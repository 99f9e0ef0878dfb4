import TimingReport.Proofs.Input.Writing
import TimingReport.Proofs.Load.Entries

/-!
# Loading what was written

Results that are written as a JSON document are loaded again as what they are: with the
names that can be seen, with times in nanoseconds, and with the counts as they were.
-/

namespace TimingReport.Load

/-- A time of a benchmark in nanoseconds, zero if it is absent. -/
def nanoseconds (entry : Input.Measured) (time : Option Input.WholeTime) : Nat :=
  (time.map Subtype.val).getD 0 * factor (entry.timeUnit.getD .nanoseconds)

/-- The record is what was measured. -/
structure Reports (entry : Input.Measured) (record : Record) : Prop where
  name : Shows entry.name record.name
  realTime : record.realTime = .ofNat (nanoseconds entry entry.realTime)
  cpuTime : record.cpuTime = .ofNat (nanoseconds entry entry.cpuTime)
  iterations : record.iterations = entry.iterations.getD 0
  itemsPerSecond : record.itemsPerSecond = none

theorem isSymbol_symbol (unit : TimeUnit) : IsSymbol (Input.symbol unit) unit := by
  cases unit <;> constructor

theorem factor_le (unit : TimeUnit) : factor unit ≤ Binary64.maxWhole := by
  cases unit <;> decide

variable {entry : Input.Measured}

theorem hasUnit_entry : HasUnit entry.entry (entry.timeUnit.getD .nanoseconds) := by
  obtain ⟨_, _, _, _, timeUnit⟩ := entry
  cases timeUnit with
  | none => rfl
  | some unit => exact isSymbol_symbol unit

/-- Whole times are scaled without rounding twice. -/
theorem scaled_entry (time : Option Input.WholeTime) :
    scaled (entry.timeUnit.getD .nanoseconds) (time.map fun time => .ofNat time.val) =
      .ofNat (nanoseconds entry time) := by
  have hfactor := factor_le (entry.timeUnit.getD .nanoseconds)
  cases time with
  | none =>
      -- an absent time is scaled like the whole number zero
      have hzero := Binary64.ofNat_mul_ofNat (Nat.zero_le Binary64.maxWhole) hfactor
      rwa [Binary64.ofNat_zero] at hzero
  | some time => exact Binary64.ofNat_mul_ofNat time.property hfactor

theorem isTiming_nanoseconds (time : Option Input.WholeTime) :
    IsTiming (.ofNat (nanoseconds entry time)) := by
  have hwhole : (time.map Subtype.val).getD 0 ≤ Binary64.maxWhole := by
    cases time with
    | none => exact Nat.zero_le _
    | some time => exact time.property
  exact isTiming_ofNat (Nat.mul_le_mul hwhole (factor_le _))

theorem reportable_entry (entry : Input.Measured) : Reportable entry.entry := by
  refine ⟨_, hasUnit_entry, ?_, ?_⟩
  · exact (scaled_entry entry.realTime).symm ▸ isTiming_nanoseconds entry.realTime
  · exact (scaled_entry entry.cpuTime).symm ▸ isTiming_nanoseconds entry.cpuTime

theorem LoadsAs.reports {record : Record} (hrecord : LoadsAs entry.entry record) :
    Reports entry record := by
  obtain ⟨unit, hunit, hrealTime, hcpuTime⟩ := hrecord.times
  obtain rfl := hunit.unique hasUnit_entry
  exact {
    name := hrecord.name
    realTime := hrealTime.trans (scaled_entry entry.realTime)
    cpuTime := hcpuTime.trans (scaled_entry entry.cpuTime)
    iterations := hrecord.iterations
    itemsPerSecond := hrecord.itemsPerSecond }

theorem shows_machine (context : Option Input.Context) :
    Shows (context.bind (·.hostName)) (machine context).hostName ∧
      Shows (context.bind (·.cpu) |>.bind (·.name)) (machine context).cpuName ∧
      (machine context).cpuCount =
        (context.bind (·.cpu) |>.bind (·.count)).or (context.bind (·.cpuCount)) := by
  cases context with
  | none => exact ⟨.absent, .absent, rfl⟩
  | some context =>
      obtain ⟨hostName, cpu, cpuCount⟩ := context
      cases cpu with
      | none => exact ⟨shows_nameOr hostName, .absent, rfl⟩
      | some cpu => exact ⟨shows_nameOr hostName, shows_nameOr cpu.name, rfl⟩

/-- Results that are written as JSON are loaded as they are: every benchmark with its name,
its times in nanoseconds and its iterations, and the machine with its names and the count
of its processor, if there is one, or else its own. -/
theorem ofText_written (source : String) (results : Input.Results) :
    ∃ loaded, ofText source results.text = .ok loaded ∧ loaded.source = source ∧
      List.Forall₂ Reports results.benchmarks loaded.records ∧
      Shows (results.context.bind (·.hostName)) loaded.machine.hostName ∧
      Shows (results.context.bind (·.cpu) |>.bind (·.name)) loaded.machine.cpuName ∧
      loaded.machine.cpuCount =
        (results.context.bind (·.cpu) |>.bind (·.count)).or
          (results.context.bind (·.cpuCount)) := by
  have hreportable : ∀ entry ∈ results.document.benchmarks, Reportable entry := by
    intro entry hentry
    obtain ⟨measured, _, rfl⟩ := List.mem_map.mp hentry
    exact reportable_entry measured
  have hloaded : ∃ loaded, run source results.document = .ok loaded := exists_run hreportable
  obtain ⟨loaded, hrun⟩ := hloaded
  obtain ⟨_, hrecords, hmachine, hsource⟩ := run_eq_ok_iff.mp hrun
  refine ⟨loaded, ?_, hsource, ?_, ?_⟩
  · rw [ofText, ofSymbols, Input.Document.ofSymbols_text]
    exact hrun
  · exact (List.forall₂_map_left_iff.mp hrecords).imp fun _ _ => LoadsAs.reports
  · rw [hmachine]
    exact shows_machine results.context

theorem Reports.eq {record : Record} (hreports : Reports entry record) : record = {
    name := record.name
    realTime := .ofNat (nanoseconds entry entry.realTime)
    cpuTime := .ofNat (nanoseconds entry entry.cpuTime)
    iterations := entry.iterations.getD 0 } := by
  obtain ⟨-, hreal, hcpu, hiterations, hitems⟩ := hreports
  rw [← hreal, ← hcpu, ← hiterations, ← hitems]

/-- Times of different units come out in nanoseconds. -/
theorem ofText_written_units :
    let results : Input.Results := {
      context := some { hostName := some "a\"b" }
      benchmarks := [
        { name := some "f", realTime := some ⟨3, by decide⟩, timeUnit := some .microseconds },
        { cpuTime := some ⟨5, by decide⟩, iterations := some 7, timeUnit := some .milliseconds }] }
    ∃ loaded, ofText "run.json" results.text = .ok loaded ∧
      loaded.machine.hostName = "a\"b" ∧ loaded.records = [
        { name := "f", realTime := .ofNat 3_000, cpuTime := .ofNat 0 },
        { name := unknownName, realTime := .ofNat 0, cpuTime := .ofNat 5_000_000
          iterations := 7 }] := by
  intro results
  obtain ⟨loaded, hloaded, -, hrecords, hhost, -⟩ := ofText_written "run.json" results
  obtain ⟨first, _, hfirst, hrest, hloadedRecords⟩ := List.forall₂_cons_left_iff.mp hrecords
  obtain ⟨second, _, hsecond, hnone, rfl⟩ := List.forall₂_cons_left_iff.mp hrest
  obtain rfl := List.forall₂_nil_left_iff.mp hnone
  refine ⟨loaded, hloaded, (shows_iff.mp hhost).trans (by decide +kernel), ?_⟩
  have hname : first.name = "f" := (shows_iff.mp hfirst.name).trans (by decide +kernel)
  have hunknown : second.name = unknownName := shows_iff.mp hsecond.name
  rw [hloadedRecords]
  rw [hfirst.eq, hsecond.eq, hname, hunknown]
  simp [nanoseconds, factor]

end TimingReport.Load
