/-!
# Outcomes of steps that may fail

A chain of steps succeeds exactly if each step does, and fails with the fault of the first
step that fails.
-/

namespace TimingReport.Outcome

variable {ε α β : Type} {x : Except ε α}

theorem map_eq_ok_iff {f : α → β} {b : β} : x.map f = .ok b ↔ ∃ a, x = .ok a ∧ f a = b := by
  cases x <;> simp [Except.map]

theorem map_eq_error_iff {f : α → β} {fault : ε} : x.map f = .error fault ↔ x = .error fault := by
  cases x <;> simp [Except.map]

theorem bind_eq_ok_iff {f : α → Except ε β} {b : β} :
    x >>= f = .ok b ↔ ∃ a, x = .ok a ∧ f a = .ok b := by
  cases x <;> simp [bind, Except.bind]

theorem toOption_eq_some_iff {a : α} : x.toOption = some a ↔ x = .ok a := by
  cases x <;> simp [Except.toOption]

/-- What is written item by item is read item by item. -/
theorem mapM_map_eq_ok {write : α → β} {read : β → Except ε α} (hread : ∀ a, read (write a) = .ok a)
    (l : List α) : (l.map write).mapM read = .ok l := by
  rw [List.mapM_map, show read ∘ write = pure from funext hread]
  exact List.mapM_pure.trans (congrArg pure l.map_id)

end TimingReport.Outcome
