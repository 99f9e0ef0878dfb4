import TimingReport.Proofs.Outcome
import TimingReport.Settings.Load

/-!
# Settings that stay usable

Rules are checked in order, so the first rule that cannot be used decides how a check ends,
and changes only ever add rules behind those that are there. A fault of settings is thus
still reported after any changes, and changes add one exactly with the first rule that
cannot be used. Settings that were loaded start without a fault.
-/

namespace TimingReport

/-- The rule has patterns, and none of them is empty. -/
def Rule.IsUsable (rule : Rule) : Prop := rule.patterns ≠ [] ∧ "" ∉ rule.patterns

/-- The fault is what is wrong with the rule at an index. -/
inductive RuleFault.Blames : RuleFault → Nat → Rule → Prop
  | noPatterns {index : Nat} {rule : Rule} (hnone : rule.patterns = []) :
      Blames (.noPatterns index rule.category) index rule
  | emptyPattern {index : Nat} {rule : Rule} (hempty : "" ∈ rule.patterns) :
      Blames (.emptyPattern index rule.category) index rule

/-- A usable rule does not match the name that is empty. -/
theorem Rule.IsUsable.matchesName_empty {rule : Rule} (husable : rule.IsUsable) :
    rule.matchesName "" = false := by
  rw [Rule.matchesName, List.any_eq_false]
  intro pattern hpattern hoccurs
  have hempty : pattern.toList = [] := List.isEmpty_iff.mp hoccurs
  exact husable.2 (String.toList_eq_nil_iff.mp hempty ▸ hpattern)

namespace Settings

/-! ## Rules one by one -/

theorem ruleFault?_eq_none_iff {index : Nat} {rule : Rule} :
    ruleFault? index rule = none ↔ rule.IsUsable := by
  unfold ruleFault? Rule.IsUsable
  split
  next hnone => simp [List.isEmpty_iff.mp hnone]
  next hsome =>
    have hne : rule.patterns ≠ [] := fun heq => hsome (List.isEmpty_iff.mpr heq)
    simp [hne]

theorem ruleFault?_eq_some_iff {index : Nat} {rule : Rule} {fault : RuleFault} :
    ruleFault? index rule = some fault ↔ fault.Blames index rule := by
  unfold ruleFault?
  constructor
  · intro hfault
    split at hfault
    next hnone =>
      cases hfault
      exact .noPatterns (List.isEmpty_iff.mp hnone)
    next =>
      split at hfault
      next hempty =>
        cases hfault
        exact .emptyPattern (by simpa using hempty)
      next => cases hfault
  · rintro (hnone | hempty)
    · rw [hnone, if_pos List.isEmpty_nil]
    · rw [if_neg (by simpa using List.ne_nil_of_mem hempty), if_pos (by simpa using hempty)]

/-! ## Rules in order -/

/-- The fault is that of the first rule that cannot be used, where the first of the rules
has the given index. -/
def FirstFault (start : Nat) (rules : List Rule) (fault : RuleFault) : Prop :=
  ∃ before rule behind, rules = before ++ rule :: behind ∧
    (∀ other ∈ before, other.IsUsable) ∧ fault.Blames (start + before.length) rule

theorem firstFault?_append (start : Nat) (first second : List Rule) :
    firstFault? start (first ++ second) =
      (firstFault? start first).or (firstFault? (start + first.length) second) := by
  induction first generalizing start with
  | nil => rfl
  | cons rule rest ih =>
      have hstart : start + 1 + rest.length = start + (rest.length + 1) := by omega
      simp only [List.cons_append, firstFault?, ih, List.length_cons, hstart, Option.or_assoc]

theorem firstFault?_eq_none_iff {start : Nat} {rules : List Rule} :
    firstFault? start rules = none ↔ ∀ rule ∈ rules, rule.IsUsable := by
  induction rules generalizing start with
  | nil => simp [firstFault?]
  | cons rule rest ih =>
      rw [firstFault?, Option.or_eq_none_iff, ruleFault?_eq_none_iff, ih, List.forall_mem_cons]

theorem firstFault?_eq_some_iff {start : Nat} {rules : List Rule} {fault : RuleFault} :
    firstFault? start rules = some fault ↔ FirstFault start rules fault := by
  constructor
  · intro hfault
    induction rules generalizing start with
    | nil => cases hfault
    | cons rule rest ih =>
        rw [firstFault?, Option.or_eq_some_iff] at hfault
        rcases hfault with hrule | ⟨hnone, hrest⟩
        · exact ⟨[], rule, rest, rfl, fun _ hmem => absurd hmem List.not_mem_nil,
            ruleFault?_eq_some_iff.mp hrule⟩
        · obtain ⟨before, blamed, behind, rfl, hbefore, hblames⟩ := ih hrest
          refine ⟨rule :: before, blamed, behind, rfl,
            List.forall_mem_cons.mpr ⟨ruleFault?_eq_none_iff.mp hnone, hbefore⟩, ?_⟩
          have hindex : start + (before.length + 1) = start + 1 + before.length := by omega
          rwa [List.length_cons, hindex]
  · rintro ⟨before, rule, behind, rfl, hbefore, hblames⟩
    rw [firstFault?_append, firstFault?_eq_none_iff.mpr hbefore, Option.none_or, firstFault?,
      ruleFault?_eq_some_iff.mpr hblames, Option.some_or]

theorem check_eq_ok_iff {s : Settings} : s.check = .ok () ↔ ∀ rule ∈ s.rules, rule.IsUsable := by
  rw [← @firstFault?_eq_none_iff 0, check]
  cases firstFault? 0 s.rules <;> simp

theorem check_eq_error_iff {s : Settings} {fault : RuleFault} :
    s.check = .error fault ↔ FirstFault 0 s.rules fault := by
  rw [← firstFault?_eq_some_iff, check]
  cases firstFault? 0 s.rules <;> simp

/-! ## Changes -/

/-- The rules that changes add, in order. -/
def Change.added (changes : List Change) : List Rule :=
  changes.filterMap fun
    | .rule added => some added
    | _ => none

theorem rules_apply (s : Settings) (change : Change) :
    (s.apply change).rules = s.rules ++ Change.added [change] := by
  cases change <;> simp [apply, Change.added]

/-- Changes keep the rules that are there and add theirs behind them. -/
theorem rules_foldl_apply (s : Settings) (changes : List Change) :
    (changes.foldl apply s).rules = s.rules ++ Change.added changes := by
  induction changes generalizing s with
  | nil => simp [Change.added]
  | cons change rest ih =>
      have hadded : Change.added (change :: rest) = Change.added [change] ++ Change.added rest :=
        List.filterMap_append (l := [change])
      rw [List.foldl_cons, ih, rules_apply, hadded, List.append_assoc]

/-! ## Loading and using -/

theorem checked_eq_ok_iff {s loaded : Settings} :
    s.checked = .ok loaded ↔ s = loaded ∧ s.check = .ok () := by
  unfold checked
  cases s.check <;> simp

theorem checked_eq_error_iff {s : Settings} {fault : SettingsFault} :
    s.checked = .error fault ↔ ∃ cause, s.check = .error cause ∧ .badRules cause = fault := by
  unfold checked
  cases s.check <;> simp

/-- Whatever the language, loaded settings passed the check. -/
theorem check_of_ofText {language : Language} {text : String} {s : Settings}
    (hload : ofText language text = .ok s) : s.check = .ok () := by
  unfold ofText at hload
  cases language with
  | toml =>
      obtain ⟨found, _, hfound⟩ := Outcome.bind_eq_ok_iff.mp hload
      obtain ⟨rfl, hcheck⟩ := checked_eq_ok_iff.mp hfound
      exact hcheck
  | yaml =>
      obtain ⟨found, _, hfound⟩ := Outcome.bind_eq_ok_iff.mp hload
      obtain ⟨rfl, hcheck⟩ := checked_eq_ok_iff.mp hfound
      exact hcheck

theorem usableTable_eq_ok_iff {s : Settings} {table : RuleTable} :
    s.usableTable = .ok table ↔
      s.check = .ok () ∧ (if s.rules = [] then .standard else ⟨s.rules⟩) = table := by
  unfold usableTable Settings.table
  cases s.check with
  | error fault => exact ⟨nofun, fun h => nomatch h.1⟩
  | ok _ =>
      change Except.ok _ = Except.ok table ↔ _
      simp

theorem usableTable_eq_error_iff {s : Settings} {fault : SettingsFault} :
    s.usableTable = .error fault ↔ ∃ cause, s.check = .error cause ∧ .badRules cause = fault := by
  unfold usableTable Settings.table
  cases s.check with
  | error cause =>
      change Except.error _ = Except.error fault ↔ _
      simp
  | ok _ => exact ⟨nofun, fun ⟨_, h, _⟩ => nomatch h⟩

/-- Of settings only the rules matter to the table. -/
theorem usableTable_congr {s other : Settings} (hrules : s.rules = other.rules) :
    s.usableTable = other.usableTable := by
  unfold usableTable Settings.table check
  rw [hrules]

/-- After any changes, a fault that was there is still reported. Without one, the first added
rule that cannot be used is reported, with its index among all rules, and none if all can be
used. The table is refused for what the check reports and otherwise holds the rules, or the
standard ones if there are none. Loaded settings have no fault, and none of their rules
matches the empty name. -/
theorem check_foldl_apply :
    (∀ (s : Settings) (changes : List Change),
      let after := changes.foldl apply s
      (∀ fault, s.check = .error fault → after.check = .error fault) ∧
      (s.check = .ok () →
        (after.check = .ok () ↔ ∀ rule ∈ Change.added changes, rule.IsUsable) ∧
        ∀ fault, after.check = .error fault ↔
          FirstFault s.rules.length (Change.added changes) fault) ∧
      (∀ fault, after.usableTable = .error fault ↔ after.checked = .error fault) ∧
      ∀ table, after.usableTable = .ok table ↔ after.check = .ok () ∧
        (if after.rules = [] then .standard else ⟨after.rules⟩) = table) ∧
    ∀ (language : Language) (text : String) (loaded : Settings),
      ofText language text = .ok loaded →
        loaded.check = .ok () ∧ ∀ rule ∈ loaded.rules, rule.matchesName "" = false := by
  refine ⟨fun s changes => ?_, fun language text loaded hload => ?_⟩
  · intro after
    have hrules : after.rules = s.rules ++ Change.added changes := rules_foldl_apply s changes
    refine ⟨fun fault hfault => ?_, fun hcheck => ⟨?_, fun fault => ?_⟩, fun fault => ?_,
      fun table => usableTable_eq_ok_iff⟩
    · -- the rule that was blamed still stands behind the same usable ones
      obtain ⟨before, rule, behind, hbefore, husable, hblames⟩ := check_eq_error_iff.mp hfault
      refine check_eq_error_iff.mpr
        ⟨before, rule, behind ++ Change.added changes, ?_, husable, hblames⟩
      rw [hrules, hbefore, List.append_assoc, List.cons_append]
    · have husable := check_eq_ok_iff.mp hcheck
      rw [check_eq_ok_iff, hrules, List.forall_mem_append]
      exact ⟨And.right, fun hadded => ⟨husable, hadded⟩⟩
    · have husable := check_eq_ok_iff.mp hcheck
      rw [check_eq_error_iff, ← firstFault?_eq_some_iff, ← firstFault?_eq_some_iff, hrules,
        firstFault?_append, firstFault?_eq_none_iff.mpr husable, Option.none_or, Nat.zero_add]
    · rw [usableTable_eq_error_iff, checked_eq_error_iff]
  · have hcheck := check_of_ofText hload
    exact ⟨hcheck, fun rule hrule => (check_eq_ok_iff.mp hcheck rule hrule).matchesName_empty⟩

end Settings

end TimingReport
