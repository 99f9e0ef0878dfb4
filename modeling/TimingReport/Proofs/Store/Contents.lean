import TimingReport.Store.Write

/-!
# The contents of a store

Putting an entry somewhere changes what is found there and nowhere else. An entry that is put
where none was and erased again leaves the store as it was, and there never is an entry with
the name of a draft.
-/

namespace TimingReport.Store

variable {store : Store} {location other : Location} {node : Inode}

/-- Where entries lie. -/
def locations (store : Store) : List Location := store.entries.map (·.1)

/-! ## What is found after a change -/

theorem node?_of_ne_nil (hlocation : location ≠ []) :
    store.node? location = store.entries.lookup location := if_neg hlocation

theorem lookup_filter_ne (entries : List (Location × Inode)) :
    (entries.filter fun (l, _) => l ≠ location).lookup other =
      if other = location then none else entries.lookup other := by
  induction entries with
  | nil => simp
  | cons first rest ih =>
      obtain ⟨l, e⟩ := first
      by_cases hl : l = location
      · by_cases hother : other = location
        · simpa [hl, hother] using ih
        · simpa [hl, hother, List.lookup_cons, beq_eq_false_iff_ne.mpr hother] using ih
      · by_cases hother : other = l
        · simp [hl, hother]
        · simpa [hl, List.lookup_cons, beq_eq_false_iff_ne.mpr hother] using ih

/-- A put is seen at its own place and nowhere else. -/
theorem node?_put (hlocation : location ≠ []) :
    (store.put location node).node? other =
      if other = location then some node else store.node? other := by
  by_cases hother : other = []
  · subst hother
    simp [node?, hlocation.symm]
  · rw [node?_of_ne_nil hother, node?_of_ne_nil hother, put, erase, List.lookup_append,
      lookup_filter_ne]
    by_cases heq : other = location
    · simp [heq]
    · simp [heq, List.lookup_cons, beq_eq_false_iff_ne.mpr heq]

/-- What lies at a place after a put, without its permissions. -/
theorem get?_put (hlocation : location ≠ []) :
    (store.put location node).get? other =
      if other = location then some node.entry else store.get? other := by
  rw [get?, node?_put hlocation, apply_ite (Option.map Inode.entry)]
  rfl

/-- A put adds its own place and keeps the others. -/
theorem mem_locations_put :
    other ∈ (store.put location node).locations ↔ other ∈ store.locations ∨ other = location := by
  by_cases heq : other = location
  · simp [locations, put, heq]
  · simp [locations, put, erase, heq]

/-! ## Drafts -/

/-- Nothing is taken away where nothing lies. -/
theorem erase_of_notMem (hfree : location ∉ store.locations) : store.erase location = store := by
  have hkept : store.entries.filter (fun (l, _) => l ≠ location) = store.entries := by
    refine List.filter_eq_self.mpr fun e he => ?_
    have hne : e.1 ≠ location := fun heq => hfree (List.mem_map.mpr ⟨e, he, heq⟩)
    simpa using hne
  rw [erase, hkept]

/-- Taking away undoes a put, and takes away what lay there before. -/
theorem erase_put (location : Location) (node : Inode) :
    (store.put location node).erase location = store.erase location := by
  simp [put, erase, List.filter_filter]

/-- Of two puts at a place the second one counts. -/
theorem put_put (location : Location) (first second : Inode) :
    (store.put location first).put location second = store.put location second := by
  rw [put, erase_put, put]

/-- What was put at a free place leaves no trace when it is taken away. -/
theorem erase_put_of_notMem (hfree : location ∉ store.locations) (node : Inode) :
    (store.put location node).erase location = store := by
  rw [erase_put, erase_of_notMem hfree]

/-- A change of what was just put is a put of what is changed. -/
theorem update_put (hlocation : location ≠ []) (node : Inode) (change : Inode → Inode) :
    (store.put location node).update location change = store.put location (change node) := by
  rw [update, node?_put hlocation, if_pos rfl]
  exact put_put location node (change node)

theorem node?_of_notMem (hlocation : location ≠ []) (hfree : location ∉ store.locations) :
    store.node? location = none := by
  rw [node?_of_ne_nil hlocation, List.lookup_eq_none_iff]
  intro e he
  have hne : location ≠ e.1 := fun heq => hfree (List.mem_map.mpr ⟨e, he, heq.symm⟩)
  simpa using hne

/-- A fresh name is longer than every name there is, so it is none of them. -/
theorem length_freshName (store : Store) (path : String) :
    path.length < (store.freshName path).length ∧
      ∀ name ∈ store.workingDirectory ++ store.entries.flatMap (·.1),
        name.length < (store.freshName path).length := by
  let lengths := (store.workingDirectory ++ store.entries.flatMap (·.1)).map String.length
  have hfresh : (store.freshName path).length = 4 + lengths.foldl max path.length := by
    simp only [freshName, String.length_append, String.length_ofList, List.length_replicate]
    rfl
  rw [List.foldl_max] at hfresh
  constructor
  · omega
  · intro name hname
    have hle : name.length ≤ lengths.max?.getD path.length :=
      List.le_max?_getD_of_mem (List.mem_map_of_mem hname)
    omega

/-- The name of a draft is none of the store. -/
theorem freshName_notMem (store : Store) (path : String) :
    store.freshName path ∉ store.workingDirectory ∧
      ∀ location ∈ store.locations, store.freshName path ∉ location := by
  have hfresh := (length_freshName store path).2 (store.freshName path)
  have hnot : store.freshName path ∉ store.workingDirectory ++ store.entries.flatMap (·.1) :=
    fun hmem => absurd (hfresh hmem) (Nat.lt_irrefl _)
  rw [List.mem_append, not_or, List.mem_flatMap] at hnot
  refine ⟨hnot.1, fun location hlocation hname => hnot.2 ?_⟩
  obtain ⟨e, he, rfl⟩ := List.mem_map.mp hlocation
  exact ⟨e, he, hname⟩

end TimingReport.Store
