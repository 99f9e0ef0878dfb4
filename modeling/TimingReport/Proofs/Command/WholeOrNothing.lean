import TimingReport.Command.Transcript
import TimingReport.Proofs.Session.Stages

/-!
# The whole report or nothing

A command reads its settings and its input before it writes, and it writes in one step. So
it ends either with the document of its job at the job's output or with the store as it was,
even if the output is a file that it reads.
-/

namespace TimingReport.Command

open HostAction

/-! ## Settings -/

/-- The job that options and their settings ask for. -/
def Options.resolvedJob (options : Options) (store : Store) : Except SettingsFault Job :=
  (Outcome.of (options.job Session.host) store).result

theorem Options.does_loadSettings (language : Settings.Language) (path : String)
    (store : Store) : ∃ result, Does (fun _ host => loadSettings host language path) store
      ⟨result, [], store⟩ := by
  have hread := does_read store path
  cases hcontent : store.read path with
  | error cause =>
      rw [hcontent] at hread
      exact ⟨_, does_bind _ hread (does_pure _)⟩
  | ok bytes =>
      rw [hcontent] at hread
      exact ⟨_, does_bind _ hread (does_pure _)⟩

/-- Reading settings changes nothing and is not heard of. -/
theorem Options.does_job (options : Options) (store : Store) :
    Does (fun _ host => options.job host) store ⟨options.resolvedJob store, [], store⟩ := by
  suffices hdoes : ∃ result, Does (fun _ host => options.job host) store ⟨result, [], store⟩ by
    obtain ⟨result, hdoes⟩ := hdoes
    have hresult : options.resolvedJob store = result :=
      congrArg Outcome.result hdoes.outcome_eq
    rwa [hresult]
  unfold job
  cases options.config with
  | none => exact ⟨_, does_pure _⟩
  | some path =>
      obtain ⟨result, hload⟩ := does_loadSettings (.ofPath path) path store
      cases result with
      | error fault => exact ⟨_, does_bind _ hload (does_pure _)⟩
      | ok settings => exact ⟨_, does_bind _ hload (does_pure _)⟩

/-! ## Verdicts -/

theorem exitCode_failure (context message : String) (causes : List String) :
    (Verdict.failure context message causes).exitCode = 1 := rfl

theorem exitCode_ofJob_ok (directory : String) (job : Job) :
    (Verdict.ofJob directory job (.ok ())).exitCode = 0 := rfl

theorem exitCode_ofJob_error (directory : String) (job : Job) (fault : JobFault) :
    (Verdict.ofJob directory job (.error fault)).exitCode = 1 := by
  unfold Verdict.ofJob
  split
  next h => cases h
  · rfl
  · rfl

/-! ## Commands -/

/-- The options resolve to a job whose input loads and whose output can be written. -/
structure Makes (options : Options) (store : Store) (job : Job) (run : Run)
    (location : Location) : Prop where
  resolves : options.resolvedJob store = .ok job
  loads : Job.loaded store job.input = .ok run
  lands : store.Takes job.output location

theorem run_cases (options : Options) (directory : String) (now : Timestamp) (store : Store) :
    (∃ job run location, Makes options store job run location ∧
      ∃ steps, Does (fun _ host => Command.run host options directory now) store {
        result := .ofJob directory job (.ok ()), steps
        store := store.put location {
          entry := .file (Text.Utf8.encode (job.document run now))
          mode := store.keptMode job.output } }) ∨
    ((¬∃ job run location, Makes options store job run location) ∧
      ∃ verdict steps, verdict.exitCode = 1 ∧
        Does (fun _ host => Command.run host options directory now) store
          ⟨verdict, steps, store⟩) := by
  have hresolves := options.does_job store
  cases hjob : options.resolvedJob store with
  | error fault =>
      rw [hjob] at hresolves
      refine .inr ⟨?_, _, _, exitCode_failure _ _ _, does_bind _ hresolves (does_pure _)⟩
      rintro ⟨job, run, location, hmakes⟩
      exact nomatch hjob.symm.trans hmakes.resolves
  | ok job =>
      rw [hjob] at hresolves
      rcases job.run_cases now store with
        ⟨fault, hload, hdoes⟩ | ⟨run, hload, hnone, cause, hdoes⟩ |
          ⟨run, location, hload, htakes, hdoes⟩
      · refine .inr ⟨?_, _, _, exitCode_ofJob_error directory job _,
          does_bind _ hresolves (does_bind _ hdoes (does_pure _))⟩
        rintro ⟨job', run, location, hmakes⟩
        cases hjob.symm.trans hmakes.resolves
        exact nomatch hload.symm.trans hmakes.loads
      · refine .inr ⟨?_, _, _, exitCode_ofJob_error directory job _,
          does_bind _ hresolves (does_bind _ hdoes (does_pure _))⟩
        rintro ⟨job', run', location, hmakes⟩
        cases hjob.symm.trans hmakes.resolves
        exact hnone location hmakes.lands
      · exact .inl ⟨job, run, location, ⟨hjob, hload, htakes⟩, _,
          does_bind _ hresolves (does_bind _ hdoes (does_pure _))⟩

/-- All that a command can do. -/
theorem perform_cases (options : Options) (s : Surroundings) :
    (∃ job run location, Makes options s.store job run location ∧
      (perform options s).exitCode = 0 ∧
      (perform options s).store = s.store.put location {
        entry := .file (Text.Utf8.encode (job.document run s.now))
        mode := s.store.keptMode job.output }) ∨
    ((¬∃ job run location, Makes options s.store job run location) ∧
      (perform options s).exitCode = 1 ∧ (perform options s).store = s.store) := by
  rcases run_cases options s.directory s.now s.store with
    ⟨job, run, location, hmakes, steps, hdoes⟩ | ⟨hnot, verdict, steps, hcode, hdoes⟩
  · refine .inl ⟨job, run, location, hmakes, ?_⟩
    rw [perform, hdoes.outcome_eq]
    exact ⟨exitCode_ofJob_ok s.directory job, rfl⟩
  · refine .inr ⟨hnot, ?_⟩
    rw [perform, hdoes.outcome_eq]
    exact ⟨hcode, rfl⟩

/-- A command succeeds exactly if its options resolve to a job whose input loads and whose
output can be written: the path leads to a place for a file, and the device fails neither to
create a file beside it nor to give it its permissions, fill it, bring it to the disk and move
it. Then the file of the output holds the document of the input as it was before, with the
permissions of the file that it replaces or those of a new one, and everything else is as it
was. If the command fails, at whatever step, the store is as it was. -/
theorem perform_whole_or_nothing (options : Options) (s : Surroundings) :
    let after := (perform options s).store
    ((perform options s).exitCode = 0 ↔
      ∃ job run location, Makes options s.store job run location) ∧
    ((perform options s).exitCode = 0 → ∃ job run location mode,
      options.resolvedJob s.store = .ok job ∧
        Job.loaded s.store job.input = .ok run ∧
        after.locate job.output = .ok location ∧
        after.node? location =
          some { entry := .file (Text.Utf8.encode (job.document run s.now)), mode } ∧
        (∀ replaced, s.store.node? location = some replaced →
          s.store.attempt .status job.output = .ok () → mode = replaced.mode) ∧
        (s.store.node? location = none → mode = s.store.newMode) ∧
        (∀ other, other ≠ location → after.node? other = s.store.node? other) ∧
        (∀ other, other ∈ after.locations ↔ other ∈ s.store.locations ∨ other = location) ∧
        after.workingDirectory = s.store.workingDirectory) ∧
    ((perform options s).exitCode ≠ 0 → after = s.store) := by
  rcases perform_cases options s with
    ⟨job, run, location, hmakes, hcode, hstore⟩ | ⟨hnot, hcode, hstore⟩
  · obtain ⟨hlocate, hnode, hothers, hlocations⟩ := hmakes.lands.put
      (Text.Utf8.encode (job.document run s.now)) (s.store.keptMode job.output)
    rw [hcode, hstore]
    refine ⟨iff_of_true rfl ⟨job, run, location, hmakes⟩, fun _ => ?_, fun h => absurd rfl h⟩
    exact ⟨job, run, location, s.store.keptMode job.output, hmakes.resolves, hmakes.loads, hlocate,
      hnode, fun _ => Store.keptMode_of_node? hmakes.lands.destination,
      Store.keptMode_of_node?_eq_none hmakes.lands.destination, hothers, hlocations, rfl⟩
  · simp [hcode, hstore, hnot]

end TimingReport.Command
