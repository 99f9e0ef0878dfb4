import Mathlib.Data.List.Forall2
import TimingReport.Proofs.Session.Stages

/-!
# Documents delivered one after the other

A history of writes keeps the last document for every place. Nothing else appears in the
store, nothing else changes, and a write that fails only says where it was to go.
-/

namespace TimingReport

/-- A document for a path. -/
structure Delivery where
  path : String
  document : String
  /-- The device as it is while the document is written. -/
  device : Device := {}

namespace Delivery

/-- The store while the document is written. -/
def storeDuring (d : Delivery) (store : Store) : Store := { store with device := d.device }

/-- What writing the document does to a store. -/
def perform (d : Delivery) (store : Store) : Outcome (Except JobFault Unit) :=
  let outcome : Outcome (Except JobFault Unit) :=
    .of (Job.writeDocument Session.host d.path d.document) (d.storeDuring store)
  { outcome with store := { outcome.store with device := store.device } }

/-- The device fails no operation for the path while the document is written. -/
def Untroubled (d : Delivery) : Prop := ∀ operation, d.device.fault? operation d.path = none

/-- The results of writing documents one after the other, and the store behind them. -/
def performAll : List Delivery → Store → List (Except JobFault Unit) × Store
  | [], store => ([], store)
  | d :: rest, store =>
      let outcome := d.perform store
      let (results, after) := performAll rest outcome.store
      (outcome.result :: results, after)

/-- The deliveries that succeeded, in order. -/
def done (deliveries : List Delivery) (results : List (Except JobFault Unit)) : List Delivery :=
  ((deliveries.zip results).filter (·.2.isOk)).map (·.1)

/-- The path of the delivery names the entry at a location. -/
def LeadsTo (d : Delivery) (store : Store) (location : Location) : Prop :=
  (store.locate d.path).toOption = some location

instance (d : Delivery) (store : Store) (location : Location) :
    Decidable (d.LeadsTo store location) :=
  inferInstanceAs (Decidable ((store.locate d.path).toOption = some location))

variable {d : Delivery} {deliveries : List Delivery} {store : Store} {location target : Location}

theorem leadsTo_iff : d.LeadsTo store location ↔ store.locate d.path = .ok location :=
  Outcome.toOption_eq_some_iff

/-! ## One delivery -/

theorem sameDirectories_storeDuring (d : Delivery) (store : Store) :
    Store.SameDirectories (d.storeDuring store) store := ⟨rfl, fun _ => rfl⟩

/-- Without trouble every operation is done. -/
theorem Untroubled.attempt (huntroubled : d.Untroubled) (store : Store) (operation : Operation) :
    (d.storeDuring store).attempt operation d.path = .ok () := by
  have hfault : (d.storeDuring store).device.fault? operation d.path = none :=
    huntroubled operation
  rw [Store.attempt, hfault]

/-- Without trouble a document comes to lie where its path leads. -/
theorem Untroubled.takes (huntroubled : d.Untroubled)
    (hdestination : store.destination d.path = .ok target) :
    (d.storeDuring store).Takes d.path target where
  destination := (d.sameDirectories_storeDuring store).destination_eq_ok_iff.mpr hdestination
  create := huntroubled.attempt store .create
  setMode _ := huntroubled.attempt store .setMode
  write := huntroubled.attempt store .write
  sync := huntroubled.attempt store .sync
  move := huntroubled.attempt store .move

/-- A delivery puts its document at its destination, or it changes nothing and names its path.
It fails only if there is no destination or the device is in trouble. -/
theorem perform_cases (d : Delivery) (store : Store) :
    (∃ target mode, store.destination d.path = .ok target ∧ (d.perform store).result = .ok () ∧
      (d.perform store).store =
        store.put target { entry := .file (Text.Utf8.encode d.document), mode }) ∨
    ((d.Untroubled → ∀ target, store.destination d.path ≠ .ok target) ∧
      (∃ cause, (d.perform store).result = .error (.write d.path cause)) ∧
      (d.perform store).store = store) := by
  rcases Job.writeDocument_cases (d.storeDuring store) d.path d.document with
    ⟨target, htakes, hdoes⟩ | ⟨hnone, cause, hdoes⟩
  · have hdestination := (d.sameDirectories_storeDuring store).destination_eq_ok_iff.mp
      htakes.destination
    rw [perform, hdoes.outcome_eq]
    exact .inl ⟨target, _, hdestination, rfl, rfl⟩
  · rw [perform, hdoes.outcome_eq]
    exact .inr ⟨fun huntroubled target hdestination =>
      hnone target (huntroubled.takes hdestination), ⟨cause, rfl⟩, rfl⟩

/-- A delivery leaves all directories as they are. -/
theorem sameDirectories_perform (d : Delivery) (store : Store) :
    Store.SameDirectories store (d.perform store).store := by
  rcases d.perform_cases store with ⟨target, mode, hdestination, _, hstore⟩ | ⟨_, _, hstore⟩
  · rw [hstore]
    exact .put (Store.isDirectory_destination hdestination) _ mode
  · rw [hstore]
    exact .refl store

/-! ## Histories -/

theorem done_cons (result : Except JobFault Unit) (results : List (Except JobFault Unit)) :
    done (d :: deliveries) (result :: results) =
      if result.isOk then d :: done deliveries results else done deliveries results := by
  cases result <;> rfl

theorem performAll_cons (d : Delivery) (rest : List Delivery) (store : Store) :
    performAll (d :: rest) store = ((d.perform store).result ::
      (performAll rest (d.perform store).store).1, (performAll rest (d.perform store).store).2) :=
  rfl

/-- A delivery that succeeds is done. -/
theorem done_of_ok (rest : List Delivery) (hresult : (d.perform store).result = .ok ()) :
    done (d :: rest) (performAll (d :: rest) store).1 =
      d :: done rest (performAll rest (d.perform store).store).1 := by
  rw [performAll_cons, hresult, done_cons]
  rfl

/-- A delivery that fails is not done. -/
theorem done_of_error {fault : JobFault} (rest : List Delivery)
    (hresult : (d.perform store).result = .error fault) :
    done (d :: rest) (performAll (d :: rest) store).1 =
      done rest (performAll rest (d.perform store).store).1 := by
  rw [performAll_cons, hresult, done_cons]
  rfl

/-- Every delivery has a result. -/
theorem length_performAll (deliveries : List Delivery) (store : Store) :
    (performAll deliveries store).1.length = deliveries.length := by
  induction deliveries generalizing store with
  | nil => rfl
  | cons d rest ih => simp [performAll, ih]

/-- Later deliveries start from the store that the earlier ones leave. -/
theorem performAll_append (first second : List Delivery) (store : Store) :
    performAll (first ++ second) store =
      ((performAll first store).1 ++ (performAll second (performAll first store).2).1,
        (performAll second (performAll first store).2).2) := by
  induction first generalizing store with
  | nil => rfl
  | cons d rest ih => simp [performAll, ih]

/-- No history changes the directories. -/
theorem sameDirectories_performAll (deliveries : List Delivery) (store : Store) :
    Store.SameDirectories store (performAll deliveries store).2 := by
  induction deliveries generalizing store with
  | nil => exact .refl store
  | cons d rest ih => exact (d.sameDirectories_perform store).trans (ih _)

/-- Entries do not vanish. -/
theorem isSome_performAll (deliveries : List Delivery) (hsome : (store.get? location).isSome) :
    ((performAll deliveries store).2.get? location).isSome := by
  induction deliveries generalizing store with
  | nil => exact hsome
  | cons d rest ih =>
      apply ih
      rcases d.perform_cases store with ⟨target, _, hdestination, _, hstore⟩ | ⟨_, _, hstore⟩
      · rw [hstore, Store.get?_put (Store.ne_nil_of_destination hdestination)]
        split
        · rfl
        · exact hsome
      · rwa [hstore]

/-- After a delivery its path names the place, whatever is delivered later. -/
theorem leadsTo_performAll {mode : Mode} (deliveries : List Delivery) (location : Location)
    (hdestination : store.destination d.path = .ok target)
    (hstore : (d.perform store).store =
      store.put target { entry := .file (Text.Utf8.encode d.document), mode }) :
    d.LeadsTo (performAll deliveries (d.perform store).store).2 location ↔ location = target := by
  have hsame := sameDirectories_performAll (d :: deliveries) store
  have hsome : ((performAll (d :: deliveries) store).2.get? target).isSome := by
    rw [performAll_cons]
    refine isSome_performAll deliveries ?_
    rw [hstore, Store.get?_put (Store.ne_nil_of_destination hdestination), if_pos rfl]
    rfl
  have hlocate := Store.locate_of_destination (hsame.destination_eq_ok_iff.mp hdestination) hsome
  have hrest : (performAll deliveries (d.perform store).store).2 =
      (performAll (d :: deliveries) store).2 := rfl
  rw [leadsTo_iff, hrest, hlocate, Except.ok.injEq, eq_comm]

/-- A place holds the last of the documents that were put there, or what it held before. -/
structure Holds (place before : Option Inode) (documents : List Delivery) : Prop where
  last : ∀ d, documents.getLast? = some d →
    place.map Inode.entry = some (.file (Text.Utf8.encode d.document))
  before : documents = [] → place = before

/-- A document that is put at a place is there until a later one is. -/
theorem Holds.cons {place before : Option Inode} {documents : List Delivery} {mode : Mode}
    (hlater : Holds place (some { entry := .file (Text.Utf8.encode d.document), mode }) documents) :
    Holds place before (d :: documents) := by
  refine ⟨fun last hlast => ?_, by simp⟩
  rw [List.getLast?_cons, Option.some.injEq] at hlast
  cases hrest : documents.getLast? with
  | some later =>
      rw [hrest] at hlast
      exact hlater.last last (hrest.trans (congrArg some hlast))
  | none =>
      -- no later document hides this one
      rw [hrest] at hlast
      rw [hlater.before (List.getLast?_eq_none_iff.mp hrest), ← hlast]
      rfl

/-- Every place holds the last document that was delivered there. -/
theorem holds_performAll (deliveries : List Delivery) (store : Store) (location : Location) :
    Holds ((performAll deliveries store).2.node? location) (store.node? location)
      ((done deliveries (performAll deliveries store).1).filter
        (·.LeadsTo (performAll deliveries store).2 location)) := by
  induction deliveries generalizing store with
  | nil => exact ⟨by simp [done], fun _ => rfl⟩
  | cons d rest ih =>
      have hrest := ih (d.perform store).store
      rcases d.perform_cases store with
        ⟨target, mode, hdestination, hresult, hstore⟩ | ⟨_, ⟨cause, hresult⟩, hstore⟩
      · have hleads := leadsTo_performAll rest location hdestination hstore
        have hput : (d.perform store).store.node? location = if location = target
            then some { entry := .file (Text.Utf8.encode d.document), mode }
            else store.node? location := by
          rw [hstore]
          exact Store.node?_put (Store.ne_nil_of_destination hdestination)
        rw [done_of_ok rest hresult, performAll_cons, List.filter_cons]
        simp only [decide_eq_true_eq, hleads]
        rw [hput] at hrest
        by_cases hlocation : location = target
        · rw [if_pos hlocation] at hrest ⊢
          exact hrest.cons
        · rwa [if_neg hlocation] at hrest ⊢
      · rw [hstore] at hrest
        rwa [done_of_error rest hresult, performAll_cons, hstore]

/-- Entries are added where documents are delivered, and nowhere else. -/
theorem mem_locations_performAll (deliveries : List Delivery) (store : Store)
    (location : Location) : location ∈ (performAll deliveries store).2.locations ↔
      location ∈ store.locations ∨ ∃ d ∈ done deliveries (performAll deliveries store).1,
        d.LeadsTo (performAll deliveries store).2 location := by
  induction deliveries generalizing store with
  | nil => simp [performAll, done]
  | cons d rest ih =>
      have hrest := ih (d.perform store).store
      rcases d.perform_cases store with
        ⟨target, mode, hdestination, hresult, hstore⟩ | ⟨_, ⟨cause, hresult⟩, hstore⟩
      · have hleads := leadsTo_performAll rest location hdestination hstore
        have hput : location ∈ (d.perform store).store.locations ↔
            location ∈ store.locations ∨ location = target := by
          rw [hstore]
          exact Store.mem_locations_put
        rw [done_of_ok rest hresult, performAll_cons, hrest, hput, List.exists_mem_cons_iff,
          hleads, or_assoc]
      · rw [done_of_error rest hresult, performAll_cons, hrest, hstore]

/-- The path of a delivery that is done leads to its document's place. -/
theorem exists_leadsTo {deliveries : List Delivery} {store : Store} :
    ∀ d ∈ done deliveries (performAll deliveries store).1,
      ∃ location, d.LeadsTo (performAll deliveries store).2 location := by
  induction deliveries generalizing store with
  | nil => simp [done]
  | cons d rest ih =>
      rcases d.perform_cases store with
        ⟨target, _, hdestination, hresult, hstore⟩ | ⟨_, ⟨_, hresult⟩, _⟩
      · rw [done_of_ok rest hresult, List.forall_mem_cons]
        exact ⟨⟨target, (leadsTo_performAll rest target hdestination hstore).mpr rfl⟩, ih⟩
      · rw [done_of_error rest hresult]
        exact ih

/-- The delivery succeeds only if its path leads to a place for a file, and it does so if the
device lets it. -/
structure SucceedsBy (d : Delivery) (store : Store) (result : Except JobFault Unit) : Prop where
  destination : result = .ok () → ∃ target, store.destination d.path = .ok target
  ok : d.Untroubled → ∀ target, store.destination d.path = .ok target → result = .ok ()

/-- A delivery without trouble succeeds if its path leads to a place for a file. -/
theorem succeedsBy_perform (d : Delivery) (store : Store) :
    d.SucceedsBy store (d.perform store).result := by
  rcases d.perform_cases store with
    ⟨target, _, hdestination, hresult, _⟩ | ⟨hnone, ⟨cause, hresult⟩, _⟩
  · exact ⟨fun _ => ⟨target, hdestination⟩, fun _ _ _ => hresult⟩
  · refine ⟨fun hok => ?_, fun huntroubled target hdestination => ?_⟩
    · exact nomatch hresult.symm.trans hok
    · exact absurd hdestination (hnone huntroubled target)

/-- Only the directories of the store decide whether a delivery succeeds. -/
theorem SucceedsBy.of_sameDirectories {other : Store} {result : Except JobFault Unit}
    (hsucceeds : d.SucceedsBy store result) (hsame : Store.SameDirectories store other) :
    d.SucceedsBy other result where
  destination hok := (hsucceeds.destination hok).imp fun _ => hsame.destination_eq_ok_iff.mp
  ok huntroubled target hdestination :=
    hsucceeds.ok huntroubled target (hsame.destination_eq_ok_iff.mpr hdestination)

/-- Which deliveries succeed is settled by their devices and by the directories that are there
at the start. -/
theorem succeedsBy_performAll (deliveries : List Delivery) (store : Store) :
    List.Forall₂ (fun d result => d.SucceedsBy store result) deliveries
      (performAll deliveries store).1 := by
  induction deliveries generalizing store with
  | nil => exact .nil
  | cons d rest ih =>
      refine .cons (d.succeedsBy_perform store) ((ih _).imp ?_)
      exact fun other result hsucceeds =>
        hsucceeds.of_sameDirectories (d.sameDirectories_perform store).symm

/-- A delivery that fails names its path and leaves the store as it was. -/
theorem error_performAll {earlier later : List Delivery} {fault : JobFault}
    (hresult : (performAll (earlier ++ d :: later) store).1[earlier.length]? =
      some (.error fault)) :
    (∃ cause, fault = .write d.path cause) ∧
      (performAll (earlier ++ [d]) store).2 = (performAll earlier store).2 := by
  rw [performAll_append] at hresult ⊢
  rw [List.getElem?_append_right (by rw [length_performAll]), length_performAll,
    Nat.sub_self] at hresult
  simp only [performAll, List.getElem?_cons_zero, Option.some.injEq] at hresult ⊢
  rcases d.perform_cases (performAll earlier store).2 with
    ⟨_, _, _, hok, _⟩ | ⟨_, ⟨cause, herror⟩, hstore⟩
  · rw [hok] at hresult
    cases hresult
  · rw [herror] at hresult
    exact ⟨⟨cause, (Except.error.inj hresult).symm⟩, hstore⟩

/-- A history of writes is a history of atomic updates, at whatever step some of them fail.
Every place holds the last document that was delivered there, or what it held before with the
permissions it had; entries are added at the destinations of successful deliveries and nowhere
else, so no draft is left; and a delivery that fails changes nothing and names the path that
was given. A delivery fails only if its path leads to no place for a file or the device is in
trouble. -/
theorem performAll_keeps_last (deliveries : List Delivery) (store : Store) :
    let results := (performAll deliveries store).1
    let after := (performAll deliveries store).2
    let delivered := done deliveries results
    List.Forall₂ (fun d result => d.SucceedsBy store result) deliveries results ∧
      (∀ d ∈ delivered, ∃ location, after.locate d.path = .ok location) ∧
      (∀ location d, (delivered.filter fun d =>
          (after.locate d.path).toOption = some location).getLast? = some d →
        after.get? location = some (.file (Text.Utf8.encode d.document))) ∧
      (∀ location, (∀ d ∈ delivered, after.locate d.path ≠ .ok location) →
        after.node? location = store.node? location) ∧
      (∀ location, location ∈ after.locations ↔ location ∈ store.locations ∨
        ∃ d ∈ delivered, after.locate d.path = .ok location) ∧
      ∀ earlier d later fault, deliveries = earlier ++ d :: later →
        results[earlier.length]? = some (.error fault) →
        (∃ cause, fault = .write d.path cause) ∧
          (performAll (earlier ++ [d]) store).2 = (performAll earlier store).2 := by
  intro results after delivered
  refine ⟨succeedsBy_performAll deliveries store, ?_,
    fun location => (holds_performAll deliveries store location).last, ?_, ?_, ?_⟩
  · intro d hd
    obtain ⟨location, hleads⟩ := exists_leadsTo d hd
    exact ⟨location, leadsTo_iff.mp hleads⟩
  · intro location hnone
    refine (holds_performAll deliveries store location).before (List.filter_eq_nil_iff.mpr ?_)
    intro d hd hleads
    exact hnone d hd (leadsTo_iff.mp (of_decide_eq_true hleads))
  · intro location
    simpa only [leadsTo_iff] using mem_locations_performAll deliveries store location
  · rintro earlier d later fault rfl hresult
    exact error_performAll hresult

end Delivery

end TimingReport
