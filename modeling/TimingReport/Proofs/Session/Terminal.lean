import Mathlib.Data.List.Forall2
import TimingReport.Proofs.Progress.Lines
import TimingReport.Proofs.Session.Stages
import TimingReport.Proofs.View.Categories

/-!
# Jobs on a terminal

A terminal prints the line of a step as soon as it hears of it, if its threshold lets the
step through. What is printed is what was done, and the threshold has no other influence.
-/

namespace TimingReport

open Console Progress

/-- The bytes of a text are as many as its size says. -/
theorem Text.Utf8.length_encode (text : String) :
    (encode text).length = text.utf8ByteSize := by
  rw [← String.size_toByteArray, ← String.utf8Encode_toList]
  simp [encode, List.utf8Encode]

/-- A store with the lines that were printed. -/
structure Terminal where
  store : Store
  printed : List String := []

namespace Terminal

/-- The host of a terminal. -/
def host (threshold : Threshold) : Host (StateM Terminal) where
  read path := do return (← get).store.read path
  write path bytes := modifyGet fun terminal =>
    let written := terminal.store.write path bytes
    (written.1, { terminal with store := written.2 })
  note step := modify fun terminal =>
    { terminal with printed := terminal.printed ++ lines threshold [step] }

/-- Running a job on a terminal that has printed nothing. -/
def watch (threshold : Threshold) (job : Job) (now : Timestamp) (store : Store) :
    Except JobFault Unit × Terminal :=
  (job.run (host threshold) now).run { store }

/-- The lines of a report that a threshold lets through: those about sections are details. -/
def shown (threshold : Threshold) (loaded : String) (sections ending : List String) :
    List String :=
  match threshold with
  | .upTo .debug => loaded :: sections ++ ending
  | .upTo .trace => loaded :: sections ++ ending
  | .upTo .info => loaded :: ending
  | _ => []

variable {threshold : Threshold} {job : Job} {now : Timestamp} {store : Store}

/-- What was printed is always the lines of the steps so far. -/
theorem runsOn (threshold : Threshold) :
    (host threshold).RunsOn fun store steps => ⟨store, lines threshold steps⟩ where
  read _ _ _ := rfl
  write _ _ _ _ := rfl
  note store steps step := by
    rw [lines_append]
    rfl

theorem watch_of_does {outcome : Outcome (Except JobFault Unit)}
    (hdoes : HostAction.Does (fun _ host => job.run host now) store outcome) :
    watch threshold job now store =
      (outcome.result, ⟨outcome.store, lines threshold outcome.steps⟩) :=
  hdoes _ _ _ (runsOn threshold) []

/-- The threshold has no influence on the result and on the store. -/
theorem watch_eq_runOn (threshold : Threshold) (job : Job) (now : Timestamp) (store : Store) :
    (watch threshold job now store).1 = (job.runOn now store).result ∧
      (watch threshold job now store).2.store = (job.runOn now store).store := by
  obtain ⟨outcome, hdoes⟩ : ∃ outcome,
      HostAction.Does (fun _ host => job.run host now) store outcome := by
    rcases job.run_cases now store with ⟨_, _, h⟩ | ⟨_, _, _, _, h⟩ | ⟨_, _, _, _, h⟩
    all_goals exact ⟨_, h⟩
  rw [Job.runOn, hdoes.outcome_eq, watch_of_does hdoes]
  exact ⟨rfl, rfl⟩

theorem lines_eq_shown {first : Progress} {details ending : List Progress}
    (threshold : Threshold) (hfirst : first.level = .info)
    (hdetails : ∀ step ∈ details, step.level = .debug)
    (hending : ∀ step ∈ ending, step.level = .info) :
    lines threshold (first :: details ++ ending) =
      shown threshold first.line (details.map line) (ending.map line) := by
  -- three blocks of one level each, so that the threshold decides block by block
  have hfirst := lines_of_level threshold (List.forall_mem_singleton.mpr hfirst)
  rw [List.cons_append, ← List.singleton_append, lines_append, lines_append, hfirst,
    lines_of_level threshold hdetails, lines_of_level threshold hending]
  cases threshold with
  | off => rfl
  | upTo level => cases level <;> rfl

/-- The lines of a job whose input loads; `ending` are those after the document is made. -/
def linesOf (threshold : Threshold) (job : Job) (run : Run) (now : Timestamp)
    (ending : List String) : List String :=
  shown threshold (line (.loaded job.input run.records.length))
    ((job.view run now).sections.map fun s => line (Job.sectionStep s))
    (line (.rendered job.format (job.view run now).sections.length
      (Text.Utf8.encode (job.document run now)).length) :: ending)

theorem lines_shownSteps (threshold : Threshold) (job : Job) (run : Run) (now : Timestamp)
    {ending : List Progress} (hending : ∀ step ∈ ending, step.level = .info) :
    lines threshold (job.shownSteps run now ++ ending) =
      linesOf threshold job run now (ending.map line) := by
  have hsections : ∀ step ∈ (job.view run now).sections.map Job.sectionStep,
      step.level = .debug := List.forall_mem_map.mpr fun _ _ => rfl
  have hrest : ∀ step ∈ [Progress.rendered job.format (job.view run now).sections.length
      (job.document run now).utf8ByteSize] ++ ending, step.level = .info :=
    List.forall_mem_cons.mpr ⟨rfl, hending⟩
  rw [Job.shownSteps, Job.renderSteps, List.cons_append, List.append_assoc, ← List.cons_append,
    lines_eq_shown threshold rfl hsections hrest, List.map_map, linesOf, Text.Utf8.length_encode]
  rfl

theorem watch_of_error {fault : LoadFault} (threshold : Threshold) (now : Timestamp)
    (hload : Job.loaded store job.input = .error fault) :
    watch threshold job now store = (.error (.load fault), ⟨store, []⟩) := by
  rcases job.run_cases now store with
    ⟨other, hother, hdoes⟩ | ⟨run, hrun, _⟩ | ⟨run, target, hrun, _⟩
  · cases hother.symm.trans hload
    exact watch_of_does hdoes
  · cases hrun.symm.trans hload
  · cases hrun.symm.trans hload

theorem watch_of_ok {run : Run} (threshold : Threshold) (now : Timestamp)
    (hload : Job.loaded store job.input = .ok run) :
    (∃ target mode, store.Takes job.output target ∧
      watch threshold job now store = (.ok (), {
        store := store.put target
          { entry := .file (Text.Utf8.encode (job.document run now)), mode }
        printed := linesOf threshold job run now
          [line (.written job.output (Text.Utf8.encode (job.document run now)).length)] })) ∨
    (∃ cause, watch threshold job now store =
      (.error (.write job.output cause), ⟨store, linesOf threshold job run now []⟩)) := by
  rcases job.run_cases now store with
    ⟨fault, hfault, _⟩ | ⟨other, hother, _, cause, hdoes⟩ | ⟨other, target, hother, htakes, hdoes⟩
  · cases hfault.symm.trans hload
  · cases hother.symm.trans hload
    refine .inr ⟨cause, ?_⟩
    have hlines := lines_shownSteps threshold job run now (List.forall_mem_nil _)
    rw [List.append_nil] at hlines
    rw [watch_of_does hdoes, hlines, List.map_nil]
  · cases hother.symm.trans hload
    refine .inl ⟨target, store.keptMode job.output, htakes, ?_⟩
    rw [watch_of_does hdoes, lines_shownSteps threshold job run now
      (List.forall_mem_singleton.mpr rfl), Text.Utf8.length_encode]
    rfl

/-- The line of a section shows what the report shows of it. -/
theorem shows_section {run : Run} {s : Section} (hs : s ∈ (job.view run now).sections) :
    let line := line (Job.sectionStep s)
    ShowsBetween "\x1b[1m\x1b[37m" "\x1b[39m\x1b[0m │ " line s.category.label ∧
      ShowsCount "\x1b[37m" "\x1b[39m benchmarks" line s.summary.timings.count ∧
      s.count = toString s.summary.timings.count ∧
      ShowsBetween "avg \x1b[95m" "\x1b[39m" line s.average := by
  obtain ⟨category, _, hsection⟩ := List.mem_filterMap.mp hs
  obtain ⟨summary, _, rfl⟩ := Option.map_eq_some_iff.mp hsection
  obtain ⟨hlabel, hcount, hmean⟩ :=
    shows_summarized summary.category summary.timings.count summary.timings.mean
  exact ⟨hlabel, hcount, rfl, hmean⟩

/-- The console tells the truth about a run, and the threshold has no influence on it. If the
input does not load, nothing is printed. Otherwise the lines tell of the input, of every section
in report order, of the document and of the written file, which is left out if writing fails.
The first line shows how many records there are, that of a section how many are in it and their
mean time as the report shows it, the next one how many sections and bytes the document has, and
the last one the size of so many bytes. -/
theorem watch_tells_truth (threshold : Threshold) (job : Job) (now : Timestamp) (store : Store) :
    let result := (watch threshold job now store).1
    let after := (watch threshold job now store).2
    result = (job.runOn now store).result ∧ after.store = (job.runOn now store).store ∧
    (∀ fault, Job.loaded store job.input = .error fault →
      result = .error (.load fault) ∧ after.printed = []) ∧
    ∀ run, Job.loaded store job.input = .ok run →
      let sections := (job.view run now).sections
      let bytes := Text.Utf8.encode (job.document run now)
      sections.map Section.category = Category.all.filter (fun category =>
        ∃ record ∈ run.records, job.table.categoryOf record.name = category) ∧
      (sections.map (·.summary.timings.count)).sum = run.records.length ∧
      ∃ loadedLine sectionLines renderedLine writtenLine,
        ShowsCount " Loaded \x1b[93m" "\x1b[39m benchmarks" loadedLine run.records.length ∧
        List.Forall₂ (fun s line =>
          ShowsBetween "\x1b[1m\x1b[37m" "\x1b[39m\x1b[0m │ " line s.category.label ∧
          ShowsCount "\x1b[37m" "\x1b[39m benchmarks" line s.summary.timings.count ∧
          s.count = toString s.summary.timings.count ∧
          ShowsBetween "avg \x1b[95m" "\x1b[39m" line s.average) sections sectionLines ∧
        ShowsCount "\x1b[93m" "\x1b[39m sections" renderedLine sections.length ∧
        ShowsCount "\x1b[93m" "\x1b[39m bytes" renderedLine bytes.length ∧
        ShowsBetween "\x1b[95m" "\x1b[39m" writtenLine (sizeText (.ofNat bytes.length)) ∧
        (result = .ok () →
          after.printed = shown threshold loadedLine sectionLines [renderedLine, writtenLine] ∧
            (∃ location, after.store.locate job.output = .ok location ∧
              after.store.get? location = some (.file bytes)) ∧
            (threshold = .upTo .debug ∨ threshold = .upTo .trace →
              after.printed.length = sections.length + 3)) ∧
        (result ≠ .ok () →
          (∃ cause, result = .error (.write job.output cause)) ∧
            after.printed = shown threshold loadedLine sectionLines [renderedLine]) := by
  intro result after
  obtain ⟨hresult, hstore⟩ := watch_eq_runOn threshold job now store
  refine ⟨hresult, hstore, ?_, ?_⟩
  · intro fault hload
    have hwatch := watch_of_error threshold now hload
    exact ⟨congrArg Prod.fst hwatch, congrArg (·.2.printed) hwatch⟩
  · intro run hload sections bytes
    obtain ⟨hsections, hbytes⟩ := shows_rendered job.format sections.length bytes.length
    refine ⟨View.map_category_sections run job.table job.title now,
      View.sum_count_sections run job.table job.title now, _,
      sections.map fun s => line (Job.sectionStep s), _, _, shows_loaded job.input _, ?_,
      hsections, hbytes, shows_written job.output bytes.length, ?_⟩
    · exact List.forall₂_map_right_iff.mpr (List.forall₂_same.mpr fun s hs => shows_section hs)
    · rcases watch_of_ok threshold now hload with ⟨target, mode, htakes, hwatch⟩ | ⟨cause, hwatch⟩
      · have hok : result = .ok () := congrArg Prod.fst hwatch
        have hafter : after = _ := congrArg Prod.snd hwatch
        obtain ⟨hlocate, hnode, -⟩ := htakes.put bytes mode
        refine ⟨fun _ => ⟨congrArg Terminal.printed hafter, ?_, ?_⟩, fun hne => absurd hok hne⟩
        · rw [hafter]
          exact ⟨target, hlocate, congrArg (Option.map Inode.entry) hnode⟩
        · rw [hafter]
          rintro (rfl | rfl) <;> simp [linesOf, shown, sections]
      · have herror : result = .error (.write job.output cause) := congrArg Prod.fst hwatch
        refine ⟨fun hok => (nomatch hok.symm.trans herror), fun _ => ?_⟩
        exact ⟨⟨cause, herror⟩, congrArg (·.2.printed) hwatch⟩

end Terminal

end TimingReport
