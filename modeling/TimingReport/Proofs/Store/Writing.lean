import TimingReport.Proofs.Store.ParentPath

/-!
# What writing a document does

A write succeeds exactly if its path has a destination and the device does not fail. Then it
puts the document there, with the permissions of the file that it replaces, and changes nothing
else. At whatever step it fails, there was a draft at most, and when that is removed the store
is as it was.
-/

namespace TimingReport.Store

variable {α β : Type} {store : Store} {path : String} {draft target : Location}

/-! ## Actions in a row -/

/-- After a success the next action goes on from the store it left. -/
theorem run_bind_ok {x : Action α} {f : α → Action β} {s t : Store} {a : α}
    (hx : x.run.run s = (.ok a, t)) : (x >>= f).run.run s = (f a).run.run t := by
  rw [ExceptT.run_bind, StateT.run_bind, hx]
  rfl

/-- After a failure nothing more is done. -/
theorem run_bind_error {x : Action α} {f : α → Action β} {s t : Store} {fault : FileFault}
    (hx : x.run.run s = (.error fault, t)) : (x >>= f).run.run s = (.error fault, t) := by
  rw [ExceptT.run_bind, StateT.run_bind, hx]
  rfl

theorem run_tryCatch (x : Action α) (handle : FileFault → Action α) (s : Store) :
    (tryCatch x handle).run.run s =
      match x.run.run s with
      | (.ok a, t) => (.ok a, t)
      | (.error fault, t) => (handle fault).run.run t := by
  change (ExceptT.tryCatch x handle).run.run s = _
  rw [ExceptT.tryCatch, ExceptT.run_mk]
  refine (StateT.run_bind x.run _ s).trans ?_
  rcases x.run.run s with ⟨fault | a, t⟩ <;> rfl

theorem run_get (s : Store) : (get : Action Store).run.run s = (.ok s, s) := rfl

theorem run_attempted (operation : Operation) (path : String) (s : Store) :
    (attempted operation path).run.run s = (s.attempt operation path, s) := rfl

/-- An operation that the device does not fail leaves the store to the next action. -/
theorem run_attempted_bind (operation : Operation) (path : String) (f : Unit → Action α)
    (s : Store) : (attempted operation path >>= f).run.run s =
      match s.attempt operation path with
      | .error fault => (.error fault, s)
      | .ok () => (f ()).run.run s := by
  have hattempted := run_attempted operation path s
  cases hattempt : s.attempt operation path with
  | error fault => exact run_bind_error (hattempted.trans (congrArg (·, s) hattempt))
  | ok => exact run_bind_ok (hattempted.trans (congrArg (·, s) hattempt))

/-! ## Single steps -/

/-- The permissions are changed only if those of the old file can be told. -/
theorem run_keepMode (draft : Location) (path : String) (s : Store) :
    (keepMode draft path).run.run s =
      match s.status? path with
      | none => (.ok (), s)
      | some mode =>
          match s.attempt .setMode path with
          | .error fault => (.error fault, s)
          | .ok () => (.ok (), s.update draft fun node => { node with mode }) := by
  rw [keepMode, run_bind_ok (run_get s)]
  cases s.status? path with
  | none => rfl
  | some mode => exact run_attempted_bind .setMode path _ s

/-- A write that fails leaves the bytes that got into the draft. -/
theorem run_fill (draft : Location) (path : String) (bytes : List UInt8) (s : Store) :
    (fill draft path bytes).run.run s =
      match s.attempt .write path with
      | .error fault => (.error fault, s.update draft fun node =>
          { node with entry := .file (bytes.take s.device.capacity) })
      | .ok () => (.ok (), s.update draft fun node => { node with entry := .file bytes }) := by
  rw [fill, run_bind_ok (run_get s)]
  cases s.attempt .write path <;> rfl

/-- The target is found before the draft is moved there. -/
theorem run_move (draft : Location) (path : String) (s : Store) :
    (move draft path).run.run s =
      match s.destination path with
      | .error fault => (.error fault, s)
      | .ok target =>
          match s.attempt .move path with
          | .error fault => (.error fault, s)
          | .ok () =>
              match s.node? draft with
              | some node => (.ok (), (s.erase draft).put target node)
              | none => (.error .missing, s) := by
  rw [move, run_bind_ok (run_get s)]
  cases s.destination path with
  | error fault => rfl
  | ok target =>
      refine (run_bind_ok (a := target) rfl).trans ?_
      refine (run_attempted_bind .move path _ s).trans ?_
      cases s.node? draft <;> rfl

/-! ## Drafts -/

/-- No part is longer than its path. -/
theorem length_le_of_mem_rawParts {part : String} (hpart : part ∈ rawParts path) :
    part.length ≤ path.length := by
  have hsublist : (['/'].intercalate [part.toList]).Sublist path.toList := by
    rw [toList_eq_intercalate path]
    exact intercalate_sublist (List.singleton_sublist.mpr (List.mem_map_of_mem hpart))
  have hlength := hsublist.length_le
  rwa [List.intercalate_singleton, String.length_toList, String.length_toList] at hlength

theorem mem_rawParts_of_splitLast {part : String} (hpart : part ∈ (splitLast path).1) :
    part ∈ rawParts path := by
  have hnamed := List.mem_reverse.mp (List.dropLast_subset _ hpart)
  exact List.mem_reverse.mp ((List.dropWhile_sublist _).subset hnamed)

/-- The name of a draft is longer than all parts of the path. -/
theorem freshName_notMem_rawParts (store : Store) (path : String) :
    store.freshName path ∉ rawParts path := fun hpart =>
  absurd (length_le_of_mem_rawParts hpart) (Nat.not_le.mpr (length_freshName store path).1)

/-- A walk does not come by a name that is neither in its parts nor where it starts. -/
theorem notMem_of_walk {parts : List String} {location : Location} {name : String}
    (hwalk : store.walk parts location = .ok target) (hparts : name ∉ parts)
    (hlocation : name ∉ location) : name ∉ target := by
  fun_induction store.walk parts location with
  | case1 =>
      cases hwalk
      exact hlocation
  | case3 _ _ _ _ _ ih => exact ih hwalk (fun h => hparts (List.mem_cons_of_mem _ h)) hlocation
  | case4 _ _ _ _ ih =>
      exact ih hwalk (fun h => hparts (List.mem_cons_of_mem _ h))
        fun h => hlocation (List.dropLast_subset _ h)
  | case6 part _ _ _ _ _ _ _ ih =>
      refine ih hwalk (fun h => hparts (List.mem_cons_of_mem _ h)) fun h => ?_
      rcases List.mem_append.mp h with h | h
      · exact hlocation h
      · exact hparts (List.mem_singleton.mp h ▸ List.mem_cons_self)
  | _ => cases hwalk

/-- The name of a draft is not on the way to where a path starts. -/
theorem freshName_notMem_origin (store : Store) (path : String) :
    store.freshName path ∉ store.origin path := by
  unfold origin
  split_ifs
  · exact List.not_mem_nil
  · exact (freshName_notMem store path).1

/-- The location may be that of a draft for the path. -/
structure IsDraft (store : Store) (path : String) (draft : Location) : Prop where
  fresh : store.freshName path ∈ draft

theorem isDraft (store : Store) (path : String) (directory : Location) :
    store.IsDraft path (directory ++ [store.freshName path]) := ⟨by simp⟩

namespace IsDraft

variable (hdraft : store.IsDraft path draft)
include hdraft

/-- Nothing lies where a draft is created. -/
theorem free : draft ∉ store.locations := fun hmem =>
  (freshName_notMem store path).2 draft hmem hdraft.fresh

theorem ne_nil : draft ≠ [] := List.ne_nil_of_mem hdraft.fresh

theorem isDirectory_eq : store.isDirectory draft = false := by
  rw [isDirectory, get?, node?_of_notMem hdraft.ne_nil hdraft.free]
  rfl

theorem sameDirectories (bytes : List UInt8) (mode : Mode) :
    SameDirectories store (store.put draft { entry := .file bytes, mode }) :=
  .put hdraft.isDirectory_eq bytes mode

/-- A draft has no part in where a path leads. -/
theorem walk_put {parts : List String} (hparts : store.freshName path ∉ parts)
    {location : Location} (hlocation : store.freshName path ∉ location) (bytes : List UInt8)
    (mode : Mode) : (store.put draft { entry := .file bytes, mode }).walk parts location =
      store.walk parts location := by
  have hsame := hdraft.sameDirectories bytes mode
  induction parts generalizing location with
  | nil => rfl
  | cons part rest ih =>
      obtain ⟨hpart, hrest⟩ := List.ne_and_not_mem_of_not_mem_cons hparts
      have hafter : store.freshName path ∉ location ++ [part] := by
        simp [hlocation, hpart]
      have hup : store.freshName path ∉ location.dropLast :=
        fun h => hlocation (List.dropLast_subset _ h)
      have hne : location ++ [part] ≠ draft := fun heq => hafter (heq ▸ hdraft.fresh)
      simp only [walk, ← hsame.isDirectory, get?_put hdraft.ne_nil, hne, if_false,
        ih hrest hlocation, ih hrest hup, ih hrest hafter]

/-- A draft changes nothing about where its path leads. -/
theorem locate_put (bytes : List UInt8) (mode : Mode) :
    (store.put draft { entry := .file bytes, mode }).locate path = store.locate path := by
  have horigin : (store.put draft { entry := .file bytes, mode }).origin path =
    store.origin path := rfl
  rw [locate, locate, horigin, hdraft.walk_put (freshName_notMem_rawParts store path)
    (freshName_notMem_origin store path)]

/-- A draft changes nothing about the permissions that its path leads to. -/
theorem status?_put (bytes : List UInt8) (mode : Mode) :
    (store.put draft { entry := .file bytes, mode }).status? path = store.status? path := by
  have hattempt : (store.put draft { entry := .file bytes, mode }).attempt .status path =
    store.attempt .status path := rfl
  rw [status?, status?, hattempt, hdraft.locate_put]
  cases hlocate : store.locate path with
  | error fault => cases store.attempt .status path <;> rfl
  | ok location =>
      have hne : location ≠ draft := by
        rintro rfl
        exact notMem_of_walk (locate_eq_ok_iff.mp hlocate).2 (freshName_notMem_rawParts store path)
          (freshName_notMem_origin store path) hdraft.fresh
      cases store.attempt .status path with
      | error fault => rfl
      | ok =>
          dsimp only
          rw [node?_put hdraft.ne_nil, if_neg hne]

/-- A draft changes nothing about where its document may be moved. -/
theorem destination_put (bytes : List UInt8) (mode : Mode) :
    (store.put draft { entry := .file bytes, mode }).destination path =
      store.destination path := by
  have hsame := hdraft.sameDirectories bytes mode
  have horigin : (store.put draft { entry := .file bytes, mode }).origin path =
    store.origin path := rfl
  have hbefore : store.freshName path ∉ (splitLast path).1 := fun hmem =>
    freshName_notMem_rawParts store path (mem_rawParts_of_splitLast hmem)
  simp only [destination, ← hsame.isDirectory, horigin,
    hdraft.walk_put hbefore (freshName_notMem_origin store path)]

end IsDraft

/-! ## Steps -/

/-- What a document has at its destination: the permissions of the file that was there, if they
can be told, or those of a new file. -/
def keptMode (store : Store) (path : String) : Mode := (store.status? path).getD store.newMode

/-- A document that is written to the path comes to lie at the target: the path leads there,
and the device fails none of the steps. -/
structure Takes (store : Store) (path : String) (target : Location) : Prop where
  destination : store.destination path = .ok target
  create : store.attempt .create path = .ok ()
  setMode : (store.status? path).isSome → store.attempt .setMode path = .ok ()
  write : store.attempt .write path = .ok ()
  sync : store.attempt .sync path = .ok ()
  move : store.attempt .move path = .ok ()

/-- The action fails and leaves a draft behind. -/
def Fails (store : Store) (draft : Location) (outcome : Except FileFault Unit × Store) : Prop :=
  ∃ fault bytes mode,
    outcome = (.error fault, store.put draft { entry := .file bytes, mode })

theorem Fails.bind {x : Action Unit} {f : Unit → Action Unit} {s : Store}
    (hx : Fails store draft (x.run.run s)) : Fails store draft ((x >>= f).run.run s) := by
  obtain ⟨fault, bytes, mode, hx⟩ := hx
  exact ⟨fault, bytes, mode, run_bind_error hx⟩

/-- An operation that fails leaves the draft as it is. -/
theorem fails_attempted {operation : Operation} {fault : FileFault}
    (hfault : store.attempt operation path = .error fault) (bytes : List UInt8) (mode : Mode) :
    Fails store draft ((attempted operation path).run.run
      (store.put draft { entry := .file bytes, mode })) :=
  ⟨fault, bytes, mode, congrArg (·, store.put draft { entry := .file bytes, mode }) hfault⟩

namespace IsDraft

variable (hdraft : store.IsDraft path draft) (bytes : List UInt8)
include hdraft

/-- The draft gets the permissions that are kept, or giving it those fails. -/
theorem keepMode_cases :
    (((store.status? path).isSome → store.attempt .setMode path = .ok ()) ∧
      (keepMode draft path).run.run
          (store.put draft { entry := .file bytes, mode := store.newMode }) =
        (.ok (), store.put draft { entry := .file bytes, mode := store.keptMode path })) ∨
    ((∃ fault, (store.status? path).isSome ∧ store.attempt .setMode path = .error fault) ∧
      Fails store draft ((keepMode draft path).run.run
        (store.put draft { entry := .file bytes, mode := store.newMode }))) := by
  have hattempt : (store.put draft { entry := .file bytes, mode := store.newMode }).attempt
    .setMode path = store.attempt .setMode path := rfl
  rw [run_keepMode, hdraft.status?_put, hattempt, keptMode]
  cases store.status? path with
  | none => exact .inl ⟨by simp, rfl⟩
  | some mode =>
      cases hsetMode : store.attempt .setMode path with
      | ok =>
          exact .inl ⟨fun _ => rfl, congrArg (Prod.mk (Except.ok ())) (update_put hdraft.ne_nil _ _)⟩
      | error fault => exact .inr ⟨⟨fault, rfl, rfl⟩, fault, bytes, store.newMode, rfl⟩

/-- The draft gets all bytes, or writing them fails. -/
theorem fill_cases (mode : Mode) (start : List UInt8) :
    (store.attempt .write path = .ok () ∧
      (fill draft path bytes).run.run (store.put draft { entry := .file start, mode }) =
        (.ok (), store.put draft { entry := .file bytes, mode })) ∨
    ((∃ fault, store.attempt .write path = .error fault) ∧
      Fails store draft ((fill draft path bytes).run.run
        (store.put draft { entry := .file start, mode }))) := by
  have hattempt : (store.put draft { entry := .file start, mode }).attempt .write path =
    store.attempt .write path := rfl
  rw [run_fill, hattempt]
  cases store.attempt .write path with
  | ok => exact .inl ⟨rfl, congrArg (Prod.mk (Except.ok ())) (update_put hdraft.ne_nil _ _)⟩
  | error fault =>
      exact .inr ⟨⟨fault, rfl⟩, fault, _, mode,
        congrArg (Prod.mk (Except.error fault)) (update_put hdraft.ne_nil _ _)⟩

/-- The draft takes the place of what was at the target, or the document cannot come there. -/
theorem move_cases (mode : Mode) :
    (∃ target, store.destination path = .ok target ∧ store.attempt .move path = .ok () ∧
      (move draft path).run.run (store.put draft { entry := .file bytes, mode }) =
        (.ok (), store.put target { entry := .file bytes, mode })) ∨
    ((∀ target, ¬store.Takes path target) ∧
      Fails store draft ((move draft path).run.run
        (store.put draft { entry := .file bytes, mode }))) := by
  have hattempt : (store.put draft { entry := .file bytes, mode }).attempt .move path =
    store.attempt .move path := rfl
  rw [run_move, hdraft.destination_put, hattempt, node?_put hdraft.ne_nil, if_pos rfl,
    erase_put_of_notMem hdraft.free]
  cases hdestination : store.destination path with
  | error fault =>
      exact .inr ⟨fun _ h => (nomatch hdestination.symm.trans h.destination), fault, bytes, mode,
        rfl⟩
  | ok target =>
      cases hmove : store.attempt .move path with
      | error fault =>
          exact .inr ⟨fun _ h => (nomatch hmove.symm.trans h.move), fault, bytes, mode, rfl⟩
      | ok => exact .inl ⟨target, rfl, rfl, rfl⟩

/-- A draft is completed and moved, or it is left behind at the step that fails. -/
theorem complete_cases (start : List UInt8) (hcreate : store.attempt .create path = .ok ()) :
    (∃ target, store.Takes path target ∧
      (complete draft path bytes).run.run
          (store.put draft { entry := .file start, mode := store.newMode }) =
        (.ok (), store.put target { entry := .file bytes, mode := store.keptMode path })) ∨
    ((∀ target, ¬store.Takes path target) ∧
      Fails store draft ((complete draft path bytes).run.run
        (store.put draft { entry := .file start, mode := store.newMode }))) := by
  rcases hdraft.keepMode_cases start with ⟨hmode, hkept⟩ | ⟨⟨fault, hstatus, hfault⟩, hfails⟩
  swap
  · exact .inr ⟨fun _ h => (nomatch hfault.symm.trans (h.setMode hstatus)), hfails.bind⟩
  rw [complete, run_bind_ok hkept]
  rcases hdraft.fill_cases bytes (store.keptMode path) start with
    ⟨hwrite, hfilled⟩ | ⟨⟨fault, hfault⟩, hfails⟩
  swap
  · exact .inr ⟨fun _ h => (nomatch hfault.symm.trans h.write), hfails.bind⟩
  rw [run_bind_ok hfilled]
  cases hsync : store.attempt .sync path with
  | error fault =>
      exact .inr ⟨fun _ h => (nomatch hsync.symm.trans h.sync),
        (fails_attempted hsync bytes _).bind⟩
  | ok =>
      have hsynced := (run_attempted .sync path (store.put draft
        { entry := .file bytes, mode := store.keptMode path })).trans (congrArg (·, _) hsync)
      rw [run_bind_ok hsynced]
      rcases hdraft.move_cases bytes (store.keptMode path) with
        ⟨target, hdestination, hmove, hmoved⟩ | hleft
      · exact .inl ⟨target, ⟨hdestination, hcreate, hmode, hwrite, hsync, hmove⟩, hmoved⟩
      · exact .inr hleft

end IsDraft

/-! ## Writes -/

/-- A draft is created in the directory of the path, under a name of its own. -/
theorem run_createBeside (path : String) (s : Store) :
    (createBeside path).run.run s =
      match s.locate (parentPath path) with
      | .error fault => (.error fault, s)
      | .ok directory =>
          if s.isDirectory directory then
            match s.attempt .create path with
            | .error fault => (.error fault, s)
            | .ok () => (.ok (directory ++ [s.freshName path]),
                s.put (directory ++ [s.freshName path]) { entry := .file [], mode := s.newMode })
          else (.error .noDirectory, s) := by
  rw [createBeside, run_bind_ok (run_get s)]
  generalize s.freshName path = name
  cases s.locate (parentPath path) with
  | error fault => rfl
  | ok directory =>
      refine (run_bind_ok (a := directory) rfl).trans ?_
      dsimp only
      cases s.isDirectory directory with
      | false => rfl
      | true => exact run_attempted_bind .create path _ s

/-- A draft is created beside the destination, or nothing is changed. -/
theorem createBeside_cases (store : Store) (path : String) :
    (∃ directory, store.attempt .create path = .ok () ∧
      (createBeside path).run.run store = (.ok (directory ++ [store.freshName path]),
        store.put (directory ++ [store.freshName path])
          { entry := .file [], mode := store.newMode })) ∨
    ((∀ target, ¬store.Takes path target) ∧
      ∃ fault, (createBeside path).run.run store = (.error fault, store)) := by
  have hparent : ∀ target, store.Takes path target → ∃ directory,
      store.locate (parentPath path) = .ok directory ∧ store.isDirectory directory := by
    intro target htakes
    obtain ⟨_, directory, _, hnames, -⟩ := destination_eq_ok_iff.mp htakes.destination
    exact ⟨directory, hnames.locate_parentPath, hnames.isDirectory⟩
  rw [run_createBeside]
  cases hlocate : store.locate (parentPath path) with
  | error fault =>
      refine .inr ⟨fun target h => ?_, fault, rfl⟩
      simpa [hlocate] using hparent target h
  | ok directory =>
      cases hdirectory : store.isDirectory directory with
      | false =>
          refine .inr ⟨fun target h => ?_, .noDirectory, by simp [hdirectory]⟩
          simpa [hlocate, hdirectory] using hparent target h
      | true =>
          cases hcreate : store.attempt .create path with
          | error fault =>
              exact .inr ⟨fun _ h => (nomatch hcreate.symm.trans h.create), fault,
                by simp [hdirectory]⟩
          | ok => exact .inl ⟨directory, rfl, by simp [hdirectory]⟩

/-- A draft that is not moved is removed. -/
theorem write_eq (store : Store) (path : String) (bytes : List UInt8) :
    store.write path bytes =
      match (createBeside path).run.run store with
      | (.error fault, s) => (.error fault, s)
      | (.ok draft, s) =>
          match (complete draft path bytes).run.run s with
          | (.ok (), moved) => (.ok (), moved)
          | (.error fault, left) => (.error fault, left.erase draft) := by
  rcases hcreated : (createBeside path).run.run store with ⟨fault | draft, s⟩
  · exact run_bind_error hcreated
  · refine (run_bind_ok hcreated).trans ((run_tryCatch _ _ s).trans ?_)
    dsimp only
    rcases (complete draft path bytes).run.run s with ⟨fault | ⟨⟩, left⟩ <;> rfl

/-- All that a write can do: the document comes to lie at its destination, or nothing is
changed. -/
theorem write_cases (store : Store) (path : String) (bytes : List UInt8) :
    (∃ target, store.Takes path target ∧ store.write path bytes =
      (.ok (), store.put target { entry := .file bytes, mode := store.keptMode path })) ∨
    ((∀ target, ¬store.Takes path target) ∧
      ∃ fault, store.write path bytes = (.error fault, store)) := by
  rw [write_eq]
  rcases createBeside_cases store path with
    ⟨directory, hcreate, hcreated⟩ | ⟨hnone, fault, hcreated⟩
  · have hdraft := isDraft store path directory
    rw [hcreated]
    rcases hdraft.complete_cases bytes [] hcreate with
      ⟨target, htakes, hcompleted⟩ | ⟨hnone, fault, left, mode, hcompleted⟩
    · refine .inl ⟨target, htakes, ?_⟩
      dsimp only
      rw [hcompleted]
    · refine .inr ⟨hnone, fault, ?_⟩
      dsimp only
      rw [hcompleted]
      exact congrArg (Prod.mk (Except.error fault)) (erase_put_of_notMem hdraft.free _)
  · exact .inr ⟨hnone, fault, by rw [hcreated]⟩

/-! ## Documents at their destinations -/

theorem locate_put (hdestination : store.destination path = .ok target) (bytes : List UInt8)
    (mode : Mode) :
    (store.put target { entry := .file bytes, mode }).locate path = .ok target := by
  have hfile := isDirectory_destination hdestination
  refine locate_of_destination
    ((SameDirectories.put hfile bytes mode).destination_eq_ok_iff.mp hdestination) ?_
  rw [get?_put (ne_nil_of_not_isDirectory hfile), if_pos rfl]
  rfl

/-- A file that is replaced hands on its permissions. -/
theorem keptMode_of_node? {node : Inode} (hdestination : store.destination path = .ok target)
    (hnode : store.node? target = some node) (hstatus : store.attempt .status path = .ok ()) :
    store.keptMode path = node.mode := by
  have hlocate : store.locate path = .ok target :=
    locate_of_destination hdestination (by rw [get?, hnode]; rfl)
  rw [keptMode, status?, hstatus, hlocate]
  dsimp only
  rw [hnode]
  rfl

/-- Where nothing was, a document has the permissions of a new file. -/
theorem keptMode_of_node?_eq_none (hdestination : store.destination path = .ok target)
    (hnode : store.node? target = none) : store.keptMode path = store.newMode := by
  obtain ⟨before, directory, name, hnames, rfl⟩ := destination_eq_ok_iff.mp hdestination
  have hlocate : store.locate path = .error .missing := by
    have hlast : store.walk [name] directory = .error .missing := by
      simp [Store.walk, hnames.isDirectory, hnames.notBlank, hnames.notDot, hnames.notUp,
        Nat.not_lt.mpr hnames.size, get?, hnode]
    rw [locate, hnames.check, hnames.parts]
    change store.walk (before ++ [name]) (store.origin path) = _
    rw [walk_append, hnames.walk]
    exact hlast
  rw [keptMode, status?, hlocate]
  cases store.attempt .status path <;> rfl

/-- A document lies at its destination, and nothing else has changed. -/
theorem Takes.put (htakes : store.Takes path target) (bytes : List UInt8) (mode : Mode) :
    let after := store.put target { entry := .file bytes, mode }
    after.locate path = .ok target ∧ after.node? target = some { entry := .file bytes, mode } ∧
      (∀ other, other ≠ target → after.node? other = store.node? other) ∧
      ∀ other, other ∈ after.locations ↔ other ∈ store.locations ∨ other = target := by
  have hne := ne_nil_of_destination htakes.destination
  refine ⟨locate_put htakes.destination bytes mode, ?_, fun other hother => ?_,
    fun _ => mem_locations_put⟩
  · rw [node?_put hne, if_pos rfl]
  · rw [node?_put hne, if_neg hother]

end TimingReport.Store
