import TimingReport.Category

/-!
# The first rule that matches

A pattern stands in a name if the name is some text, the pattern and some text. The category
of a name is that of the first rule with a pattern that stands in it, and `Other` if there is
no such rule; what the rules behind the first one say does not matter.
-/

namespace TimingReport

/-! ## Patterns in texts -/

namespace Text

/-- The text is some text, the pattern and some text. -/
def StandsIn (pattern text : String) : Prop := ∃ before behind, text = before ++ pattern ++ behind

theorem standsIn_iff_infix {pattern text : String} :
    StandsIn pattern text ↔ pattern.toList <:+: text.toList := by
  constructor
  · rintro ⟨before, behind, rfl⟩
    exact ⟨before.toList, behind.toList, by simp⟩
  · rintro ⟨before, behind, htext⟩
    refine ⟨String.ofList before, String.ofList behind, String.toList_injective ?_⟩
    simpa using htext.symm

/-- The search looks at every place of the text, its end included. -/
theorem occursIn_iff_infix {pattern text : List Char} :
    occursIn pattern text ↔ pattern <:+: text := by
  induction text with
  | nil => rw [occursIn, List.isEmpty_iff, List.infix_nil]
  | cons c rest ih =>
      rw [occursIn, Bool.or_eq_true, List.isPrefixOf_iff_prefix, ih, List.infix_cons_iff]

theorem occurs_iff {pattern text : String} : occurs pattern text ↔ StandsIn pattern text :=
  occursIn_iff_infix.trans standsIn_iff_infix.symm

/-- The characters of a pattern stand side by side in the text, each as it is. -/
theorem occurs_iff_getElem? {pattern text : String} :
    occurs pattern text ↔ ∃ start, start + pattern.length ≤ text.length ∧
      ∀ i < pattern.length, text.toList[start + i]? = pattern.toList[i]? := by
  rw [occurs, occursIn_iff_infix, List.infix_iff_getElem?]
  simp only [String.length_toList]
  refine exists_congr fun start => and_congr (by rw [Nat.add_comm]) (forall_congr' fun i => ?_)
  refine forall_congr' fun hi => ?_
  rw [Nat.add_comm i start, List.getElem?_eq_getElem (l := pattern.toList)]

end Text

/-! ## Rules in order -/

namespace Rule

/-- One of the rule's patterns stands in the name. -/
def Covers (rule : Rule) (name : String) : Prop :=
  ∃ pattern ∈ rule.patterns, Text.StandsIn pattern name

theorem matchesName_iff {rule : Rule} {name : String} :
    rule.matchesName name ↔ rule.Covers name := by
  simp only [matchesName, Covers, List.any_eq_true, Text.occurs_iff]

end Rule

namespace RuleTable

/-- The rule is the first of the table that covers the name. -/
def FirstCovers (table : RuleTable) (rule : Rule) (name : String) : Prop :=
  ∃ before behind, table.rules = before ++ rule :: behind ∧ rule.Covers name ∧
    ∀ earlier ∈ before, ¬earlier.Covers name

variable {table : RuleTable} {rule : Rule} {name : String}

theorem find?_eq_some_iff :
    table.rules.find? (·.matchesName name) = some rule ↔ table.FirstCovers rule name := by
  simp only [List.find?_eq_some_iff_append, Bool.not_eq_true', ← Bool.not_eq_true,
    Rule.matchesName_iff]
  constructor
  · rintro ⟨hcovers, before, behind, hrules, hearlier⟩
    exact ⟨before, behind, hrules, hcovers, hearlier⟩
  · rintro ⟨before, behind, hrules, hcovers, hearlier⟩
    exact ⟨hcovers, before, behind, hrules, hearlier⟩

theorem find?_eq_none_iff :
    table.rules.find? (·.matchesName name) = none ↔ ∀ rule ∈ table.rules, ¬rule.Covers name := by
  simp only [List.find?_eq_none, Rule.matchesName_iff]

theorem categoryOf_of_firstCovers (hfirst : table.FirstCovers rule name) :
    table.categoryOf name = rule.category := by
  rw [categoryOf, find?_eq_some_iff.mpr hfirst]

theorem categoryOf_of_not_covers (hnone : ∀ rule ∈ table.rules, ¬rule.Covers name) :
    table.categoryOf name = .other := by
  rw [categoryOf, find?_eq_none_iff.mpr hnone]

/-- If some rule covers a name, there is a first one. -/
theorem exists_firstCovers_or (table : RuleTable) (name : String) :
    (∃ rule, table.FirstCovers rule name) ∨ ∀ rule ∈ table.rules, ¬rule.Covers name := by
  cases hfound : table.rules.find? (·.matchesName name) with
  | none => exact .inr (find?_eq_none_iff.mp hfound)
  | some rule => exact .inl ⟨rule, find?_eq_some_iff.mp hfound⟩

/-- The category of a name is that of the first rule that covers it, or `Other` if none does.
An empty pattern stands in every name, a rule without patterns covers none, and a pattern
stands in a name only with all its characters side by side, in the same case. -/
theorem categoryOf_eq_iff (table : RuleTable) (name : String) :
    (∀ category, table.categoryOf name = category ↔
      (∃ rule, rule.category = category ∧ table.FirstCovers rule name) ∨
        category = .other ∧ ∀ rule ∈ table.rules, ¬rule.Covers name) ∧
    (∀ rule : Rule, ("" ∈ rule.patterns → rule.matchesName name = true) ∧
      (rule.patterns = [] → rule.matchesName name = false)) ∧
    ∀ pattern, Text.occurs pattern name ↔ ∃ start, start + pattern.length ≤ name.length ∧
      ∀ i < pattern.length, name.toList[start + i]? = pattern.toList[i]? := by
  refine ⟨fun category => ⟨fun hcategory => ?_, ?_⟩,
    fun rule => ⟨fun hempty => ?_, fun hnone => ?_⟩, fun _ => Text.occurs_iff_getElem?⟩
  · rcases exists_firstCovers_or table name with ⟨rule, hfirst⟩ | hnone
    · exact .inl ⟨rule, (categoryOf_of_firstCovers hfirst).symm.trans hcategory, hfirst⟩
    · exact .inr ⟨hcategory.symm.trans (categoryOf_of_not_covers hnone), hnone⟩
  · rintro (⟨rule, hcategory, hfirst⟩ | ⟨hcategory, hnone⟩)
    · exact (categoryOf_of_firstCovers hfirst).trans hcategory
    · exact (categoryOf_of_not_covers hnone).trans hcategory.symm
  · exact Rule.matchesName_iff.mpr ⟨"", hempty, "", name, by simp⟩
  · rw [Rule.matchesName, hnone, List.any_nil]

/-- The rule for `Config` comes before the one for `Memory`, and case matters to both. -/
example : RuleTable.standard.categoryOf "BM_MemoryConfig" = .config ∧
    RuleTable.standard.categoryOf "bm_memory_config" = .other := by
  decide +kernel

end RuleTable

end TimingReport
