import TimingReport.Session
import TimingReport.Proofs.Store.Writing

/-!
# The stages of a job

A job loads, renders and writes. What each stage can do is stated once here, for every host
whose state is a store with the progress that was heard of, and from it what a whole job can
do: it fails to load, it fails to write, or it puts its document at the destination.
-/

namespace TimingReport

variable {α β σ : Type}

/-! ## Actions on hosts -/

/-- The host works on a store and hears of steps. Its state is what `state` makes of the store
and of the steps so far. -/
structure Host.RunsOn (host : Host (StateM σ)) (state : Store → List Progress → σ) : Prop where
  read : ∀ store steps path,
    (host.read path).run (state store steps) = (store.read path, state store steps)
  write : ∀ store steps path bytes, (host.write path bytes).run (state store steps) =
    ((store.write path bytes).1, state (store.write path bytes).2 steps)
  note : ∀ store steps step,
    (host.note step).run (state store steps) = ((), state store (steps ++ [step]))

theorem Session.runsOn : Session.host.RunsOn Session.mk where
  read _ _ _ := rfl
  write _ _ _ _ := rfl
  note _ _ _ := rfl

/-- An action that any host can carry out. -/
abbrev HostAction (α : Type) : Type 1 := ∀ σ, Host (StateM σ) → StateM σ α

namespace HostAction

/-- On every host that works on the store the action has the same outcome. -/
def Does (action : HostAction α) (store : Store) (outcome : Outcome α) : Prop :=
  ∀ σ (host : Host (StateM σ)) (state : Store → List Progress → σ), host.RunsOn state →
    ∀ steps, (action σ host).run (state store steps) =
      (outcome.result, state outcome.store (steps ++ outcome.steps))

variable {store other after : Store} {steps more : List Progress} {a : α} {b : β}

theorem Does.outcome_eq {action : HostAction α} {outcome : Outcome α}
    (hdoes : Does action store outcome) : Outcome.of (action _ Session.host) store = outcome := by
  have hrun := hdoes _ _ _ Session.runsOn []
  rw [Outcome.of, hrun, List.nil_append]

theorem does_pure (a : α) : Does (fun _ _ => pure a) store ⟨a, [], store⟩ := by
  intro σ host state _ steps
  rw [List.append_nil]
  rfl

/-- Actions in a row: the second one starts from the result and the store of the first. -/
theorem does_bind {first : HostAction α} (next : ∀ σ, Host (StateM σ) → α → StateM σ β)
    (hfirst : Does first store ⟨a, steps, other⟩)
    (hnext : Does (fun σ host => next σ host a) other ⟨b, more, after⟩) :
    Does (fun σ host => first σ host >>= next σ host) store ⟨b, steps ++ more, after⟩ := by
  intro σ host state hruns before
  have hrun := hnext σ host state hruns (before ++ steps)
  rw [List.append_assoc] at hrun
  rw [StateT.run_bind, hfirst σ host state hruns]
  exact hrun

theorem does_read (store : Store) (path : String) :
    Does (fun _ host => host.read path) store ⟨store.read path, [], store⟩ := by
  intro σ host state hruns steps
  rw [hruns.read, List.append_nil]

theorem does_write (store : Store) (path : String) (bytes : List UInt8) :
    Does (fun _ host => host.write path bytes) store
      ⟨(store.write path bytes).1, [], (store.write path bytes).2⟩ := by
  intro σ host state hruns steps
  rw [hruns.write, List.append_nil]

theorem does_note (step : Progress) :
    Does (fun _ host => host.note step) store ⟨(), [step], store⟩ :=
  fun _ _ _ hruns steps => hruns.note store steps step

theorem does_notes (store : Store) (steps : List Progress) :
    Does (fun _ host => steps.forM host.note) store ⟨(), steps, store⟩ := by
  induction steps with
  | nil => exact does_pure ()
  | cons step rest ih => exact does_bind (fun _ host _ => rest.forM host.note) (does_note step) ih

end HostAction

/-! ## Stages -/

namespace Job

open HostAction

variable {store : Store}

/-- The run that loading a file gives. -/
def loaded (store : Store) (path : String) : Except LoadFault Run :=
  (Outcome.of (load Session.host path) store).result

/-- The steps of loading: none if it fails. -/
def loadSteps (path : String) : Except LoadFault Run → List Progress
  | .error _ => []
  | .ok run => [.loaded path run.records.length]

/-- What is loaded from a file that is read depends on its bytes alone. -/
theorem does_load_bytes {path : String} {bytes : List UInt8}
    (hcontent : store.read path = .ok bytes) : Does (fun _ host => load host path) store
      ⟨Load.ofBytes path bytes, loadSteps path (Load.ofBytes path bytes), store⟩ := by
  have hread := does_read store path
  rw [hcontent] at hread
  refine does_bind _ hread ?_
  cases hrun : Load.ofBytes path bytes with
  | error fault =>
      simp only [Load.ofReader, hrun]
      exact does_pure _
  | ok run =>
      simp only [Load.ofReader, hrun]
      exact does_bind _ (does_note _) (does_pure _)

theorem does_load (store : Store) (path : String) : Does (fun _ host => load host path) store
    ⟨loaded store path, loadSteps path (loaded store path), store⟩ := by
  -- `loaded` is the result on the host of a session, so any other host has it too
  suffices hdoes : ∃ result, Does (fun _ host => load host path) store
      ⟨result, loadSteps path result, store⟩ by
    obtain ⟨result, hdoes⟩ := hdoes
    have hresult : loaded store path = result := congrArg Outcome.result hdoes.outcome_eq
    rwa [hresult]
  have hread := does_read store path
  cases hcontent : store.read path with
  | error cause =>
      rw [hcontent] at hread
      by_cases hmissing : cause = .missing
      · subst hmissing
        exact ⟨.error (.notFound path), does_bind _ hread (does_pure _)⟩
      · refine ⟨.error (.unreadable path cause), does_bind _ hread ?_⟩
        cases cause <;> first | contradiction | exact does_pure _
  | ok bytes => exact ⟨_, does_load_bytes hcontent⟩

/-- All that writing a document can do. -/
theorem writeDocument_cases (store : Store) (path document : String) :
    (∃ target, store.Takes path target ∧
      Does (fun _ host => writeDocument host path document) store {
        result := .ok (), steps := [.written path document.utf8ByteSize]
        store := store.put target
          { entry := .file (Text.Utf8.encode document), mode := store.keptMode path } }) ∨
    ((∀ target, ¬store.Takes path target) ∧
      ∃ cause, Does (fun _ host => writeDocument host path document) store {
        result := .error (.write path cause), steps := [], store }) := by
  have hwritten := does_write store path (Text.Utf8.encode document)
  rcases store.write_cases path (Text.Utf8.encode document) with
    ⟨target, htakes, hwrite⟩ | ⟨hnone, cause, hwrite⟩
  · rw [hwrite] at hwritten
    exact .inl ⟨target, htakes,
      does_bind _ hwritten (does_bind _ (does_note _) (does_pure _))⟩
  · rw [hwrite] at hwritten
    exact .inr ⟨hnone, cause, does_bind _ hwritten (does_pure _)⟩

/-- The steps before a document is written. -/
def shownSteps (job : Job) (run : Run) (now : Timestamp) : List Progress :=
  .loaded job.input run.records.length :: job.renderSteps run now

/-- All that a job can do: its input does not load, or its output cannot be written, or it puts
its document there. -/
theorem run_cases (job : Job) (now : Timestamp) (store : Store) :
    (∃ fault, loaded store job.input = .error fault ∧
      Does (fun _ host => job.run host now) store {
        result := .error (.load fault), steps := [], store }) ∨
    (∃ run, loaded store job.input = .ok run ∧
      (∀ target, ¬store.Takes job.output target) ∧
      ∃ cause, Does (fun _ host => job.run host now) store {
        result := .error (.write job.output cause), steps := job.shownSteps run now, store }) ∨
    (∃ run target, loaded store job.input = .ok run ∧
      store.Takes job.output target ∧
      Does (fun _ host => job.run host now) store {
        result := .ok ()
        steps := job.shownSteps run now ++ [.written job.output (job.document run now).utf8ByteSize]
        store := store.put target {
          entry := .file (Text.Utf8.encode (job.document run now))
          mode := store.keptMode job.output } }) := by
  have hloads := does_load store job.input
  cases hload : loaded store job.input with
  | error fault =>
      rw [hload] at hloads
      exact .inl ⟨fault, rfl, does_bind _ hloads (does_pure _)⟩
  | ok run =>
      rw [hload] at hloads
      have hnotes := does_notes store (job.renderSteps run now)
      rcases writeDocument_cases store job.output (job.document run now) with
        ⟨target, htakes, hwrite⟩ | ⟨hnone, cause, hwrite⟩
      · have hrest := does_bind (fun _ host _ => writeDocument host job.output _) hnotes hwrite
        refine .inr (.inr ⟨run, target, rfl, htakes, ?_⟩)
        rw [shownSteps, List.cons_append, ← List.singleton_append]
        exact does_bind _ hloads hrest
      · have hrest := does_bind (fun _ host _ => writeDocument host job.output _) hnotes hwrite
        rw [List.append_nil] at hrest
        refine .inr (.inl ⟨run, rfl, hnone, cause, ?_⟩)
        rw [shownSteps, ← List.singleton_append]
        exact does_bind _ hloads hrest

end Job

end TimingReport
