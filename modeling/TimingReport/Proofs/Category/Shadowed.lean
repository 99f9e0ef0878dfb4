import TimingReport.Job
import TimingReport.Proofs.Category.FirstMatch

/-!
# Shadowed rules

A rule is shadowed if each of its patterns holds a pattern of an earlier rule. These are exactly
the rules that are never the first to cover a name, so they can be deleted: every name keeps its
category, and every document stays as it is.
-/

namespace TimingReport

theorem Text.StandsIn.trans {part pattern text : String} (hpart : StandsIn part pattern)
    (hpattern : StandsIn pattern text) : StandsIn part text := by
  have hinside := standsIn_iff_infix.mp hpart
  have hbetween := standsIn_iff_infix.mp hpattern
  exact standsIn_iff_infix.mpr (hinside.trans hbetween)

namespace Rule

/-- In each of the rule's patterns stands some pattern of an earlier rule. -/
def ShadowedBy (rule : Rule) (before : List Rule) : Prop :=
  ∀ pattern ∈ rule.patterns, ∃ earlier ∈ before, ∃ part ∈ earlier.patterns,
    Text.StandsIn part pattern

/-- A shadowed rule covers only what an earlier rule covers, and no other rule is like that: a
pattern that nothing shadows is a name that is covered by its rule alone. -/
theorem shadowedBy_iff {rule : Rule} {before : List Rule} :
    rule.ShadowedBy before ↔
      ∀ name, rule.Covers name → ∃ earlier ∈ before, earlier.Covers name := by
  constructor
  · rintro hshadowed name ⟨pattern, hpattern, hstands⟩
    obtain ⟨earlier, hearlier, part, hpart, hinside⟩ := hshadowed pattern hpattern
    exact ⟨earlier, hearlier, part, hpart, hinside.trans hstands⟩
  · intro hcovered pattern hpattern
    exact hcovered pattern ⟨pattern, hpattern, "", "", by simp⟩

end Rule

namespace RuleTable

variable {before : List Rule} {rule : Rule}

/-- A rule that is not the first to cover a name says nothing about it. -/
theorem find?_delete (behind : List Rule) {name : String}
    (hcovered : rule.Covers name → ∃ earlier ∈ before, earlier.Covers name) :
    (before ++ rule :: behind).find? (·.matchesName name) =
      (before ++ behind).find? (·.matchesName name) := by
  rw [List.find?_append, List.find?_append]
  cases hfound : before.find? (·.matchesName name) with
  | some earlier => rfl
  | none =>
      have hnone : ∀ earlier ∈ before, ¬earlier.Covers name :=
        (@find?_eq_none_iff ⟨before⟩ name).mp hfound
      have hmissed : ¬rule.matchesName name := by
        intro hmatches
        obtain ⟨earlier, hearlier, hcovers⟩ := hcovered (Rule.matchesName_iff.mp hmatches)
        exact hnone earlier hearlier hcovers
      rw [List.find?_cons, Bool.eq_false_iff.mpr hmissed]

theorem categoryOf_delete_shadowed (hshadowed : rule.ShadowedBy before) (behind : List Rule) :
    categoryOf ⟨before ++ rule :: behind⟩ = categoryOf ⟨before ++ behind⟩ := by
  funext name
  have hfind := find?_delete behind (Rule.shadowedBy_iff.mp hshadowed name)
  simp only [categoryOf, hfind]

variable {table other : RuleTable}

/-- Of a table only the categories of names matter to a classification. -/
theorem ofRecords_congr (hcategory : table.categoryOf = other.categoryOf)
    (records : List Record) :
    Classification.ofRecords table records = Classification.ofRecords other records := by
  rw [Classification.ofRecords, Classification.ofRecords, hcategory]

end RuleTable

/-- Of its table only the categories of names matter to a job's documents. -/
theorem Job.document_congr {table other : RuleTable}
    (hcategory : table.categoryOf = other.categoryOf) (job : Job) (run : Run) (now : Timestamp) :
    Job.document { job with table := table } run now =
      Job.document { job with table := other } run now := by
  simp only [document, view, View.ofRun, RuleTable.ofRecords_congr hcategory]

/-- A shadowed rule is dead. Without it every name has the same category, all records are
divided in the same way, and every document of every run is the same. -/
theorem Job.document_delete_shadowed {before : List Rule} {rule : Rule}
    (hshadowed : rule.ShadowedBy before) (behind : List Rule) :
    let table : RuleTable := ⟨before ++ rule :: behind⟩
    let without : RuleTable := ⟨before ++ behind⟩
    (∀ name, table.categoryOf name = without.categoryOf name) ∧
      (∀ records, Classification.ofRecords table records =
        Classification.ofRecords without records) ∧
      ∀ (job : Job) (run : Run) (now : Timestamp),
        Job.document { job with table := table } run now =
          Job.document { job with table := without } run now := by
  intro table without
  have hcategory : table.categoryOf = without.categoryOf :=
    RuleTable.categoryOf_delete_shadowed hshadowed behind
  exact ⟨congrFun hcategory, RuleTable.ofRecords_congr hcategory,
    Job.document_congr hcategory⟩

/-- The rule for the memory of configurations stands behind those for configurations and for
caches, so the last rule takes its place. -/
theorem Job.document_delete_shadowed_memory :
    let before : List Rule := [⟨.config, ["Config"]⟩, ⟨.core, ["Batch", "Cache"]⟩]
    let rule : Rule := ⟨.memory, ["MemoryConfig", "CacheMemory"]⟩
    let behind : List Rule := [⟨.network, ["Memory"]⟩]
    let run : Run := {
      machine := {}
      records := [.named "BM_MemoryConfig" (.ofNat 5), .named "BM_Memory" (.ofNat 7)]
      source := "results.json" }
    let now : Timestamp := ⟨2024, 5, 1, 12, 0, 0, 0⟩
    rule.ShadowedBy before ∧
      RuleTable.categoryOf ⟨before ++ rule :: behind⟩ "BM_MemoryConfig" = .config ∧
      RuleTable.categoryOf ⟨before ++ behind⟩ "BM_MemoryConfig" = .config ∧
      Job.document { Job.standard with table := ⟨before ++ rule :: behind⟩ } run now =
        Job.document { Job.standard with table := ⟨before ++ behind⟩ } run now := by
  intro before rule behind run now
  have hshadowed : rule.ShadowedBy before := by
    refine List.forall_mem_cons.mpr ⟨?_, List.forall_mem_singleton.mpr ?_⟩
    · exact ⟨_, List.mem_cons_self, "Config", List.mem_cons_self, "Memory", "", rfl⟩
    · exact ⟨_, List.mem_cons_of_mem _ List.mem_cons_self, "Cache",
        List.mem_cons_of_mem _ List.mem_cons_self, "", "Memory", rfl⟩
  obtain ⟨hcategory, -, hdocument⟩ := Job.document_delete_shadowed hshadowed behind
  have hname : RuleTable.categoryOf ⟨before ++ behind⟩ "BM_MemoryConfig" = .config := by
    decide +kernel
  exact ⟨hshadowed, (hcategory _).trans hname, hname, hdocument Job.standard run now⟩

end TimingReport
