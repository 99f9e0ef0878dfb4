import TimingReport.Job
import TimingReport.Store.Write

/-!
# Sessions on a modelled store

A session is a store and the progress that was heard of. A job on a session is a function of
the store, which tells all that running it can change.
-/

namespace TimingReport

/-- A store with the steps of progress so far. -/
structure Session where
  store : Store
  steps : List Progress := []

namespace Session

/-- The host of a session. -/
def host : Host (StateM Session) where
  read path := do return (← get).store.read path
  write path bytes := modifyGet fun session =>
    let written := session.store.write path bytes
    (written.1, { session with store := written.2 })
  note step := modify fun session => { session with steps := session.steps ++ [step] }

end Session

/-- What a job does to a store: whether it succeeds, the steps of its progress and the store
behind it. -/
structure Outcome (α : Type) where
  result : α
  steps : List Progress
  store : Store

/-- What an action on a session's host does to a store. -/
def Outcome.of {α : Type} (action : StateM Session α) (store : Store) : Outcome α :=
  let (result, session) := action.run { store }
  { result, steps := session.steps, store := session.store }

/-- What a job does to a store. -/
def Job.runOn (job : Job) (now : Timestamp) (store : Store) : Outcome (Except JobFault Unit) :=
  .of (job.run Session.host now) store

end TimingReport
