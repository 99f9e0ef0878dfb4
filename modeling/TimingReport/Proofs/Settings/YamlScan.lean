import TimingReport.Proofs.Settings.YamlTokens

/-!
# The tokens of whole settings in YAML

The lines of settings follow one another at known columns, so each of them is scanned with
known collections open around it.
-/

namespace TimingReport.Settings

open TimingReport.Yaml Write

/-! ## The tokens of each part -/

/-- The tokens of a setting. -/
def entryTokens (entry : String × String) : List Token := [
  .key, .text entry.1 true, .value, .text entry.2 false]

/-- The tokens of a rule up to the end of its mapping. -/
def ruleStart (rule : Rule) : List Token :=
  .blockEntry :: .blockMappingStart :: entryTokens (categoryField, rule.category.key)
    ++ [.key, .text patternsField true, .value] ++ listTokens rule.patterns

/-- The tokens of a rule. -/
def ruleTokens (rule : Rule) : List Token := ruleStart rule ++ [.blockEnd]

/-- The tokens of the rules, which are left out if there are none. -/
def rulesTokens (rules : List Rule) : List Token :=
  if rules = [] then []
  else [.key, .text "rules" true, .value, .blockSequenceStart] ++ rules.flatMap ruleTokens
    ++ [.blockEnd]

/-- The tokens of settings, of which a text without any is empty. -/
def tokensOf (s : Settings) : List Token :=
  if entries s = [] ∧ s.rules = [] then [.streamEnd]
  else .blockMappingStart :: (entries s).flatMap entryTokens ++ rulesTokens s.rules
    ++ [.blockEnd, .streamEnd]

/-! ## Lines -/

theorem isDeep_opened (token : Token) (column : Nat) (indents : List Nat) (tokens : List Token) :
    IsDeep column (opened token column indents tokens).1 := by
  intro indent hindent
  by_cases hsame : indents.head? = some column
  · rw [opened, if_pos hsame, hsame] at hindent
    exact Nat.le_of_eq (Option.some.inj hindent).symm
  · rw [opened, if_neg hsame] at hindent
    exact Nat.le_of_eq (Option.some.inj hindent).symm

section Lines

variable {name : String} {indents : List Nat} {tokens given : List Token} {p : Place}
  {rest : List Char}

theorem scans_textLine (hname : IsWord name) (hdeep : IsDeep p.column indents) (v : String)
    (hscans : ∀ q : Place, q.column = 0 →
      Scans (outside true (opened .blockMappingStart p.column indents tokens).1
        ((entryTokens (name, v)).reverse ++ (opened .blockMappingStart p.column indents tokens).2)
        q rest) given) :
    Scans (outside true indents tokens p (yamlLine name (quoted v) ++ rest)) given := by
  have hline : yamlLine name (quoted v) ++ rest =
      name.toList ++ ':' :: ' ' :: (quoted v ++ '\n' :: rest) := by
    simp [yamlLine, line]
  rw [hline]
  refine scans_key hname (.inl rfl) hdeep fun q hq => ?_
  refine scans_text ((isDeep_opened _ _ _ _).mono (Nat.le_of_lt hq)) v fun q => ?_
  exact scans_lineFeed (hscans (q.nextLine 1) rfl)

theorem scans_listLine (hname : IsWord name) (hdeep : IsDeep p.column indents)
    (texts : List String)
    (hscans : ∀ q : Place, q.column = 0 →
      Scans (outside true (opened .blockMappingStart p.column indents tokens).1
        ((.key :: .text name true :: .value :: listTokens texts).reverse ++
          (opened .blockMappingStart p.column indents tokens).2) q rest) given) :
    Scans (outside true indents tokens p (yamlLine name (list texts) ++ rest)) given := by
  have hline : yamlLine name (list texts) ++ rest =
      name.toList ++ ':' :: ' ' :: (list texts ++ '\n' :: rest) := by
    simp [yamlLine, line]
  rw [hline]
  refine scans_key hname (.inl rfl) hdeep fun q hq => ?_
  refine scans_list ((isDeep_opened _ _ _ _).mono (Nat.le_of_lt hq)) texts fun q => ?_
  refine scans_lineFeed ?_
  simpa using hscans (q.nextLine 1) rfl

end Lines

/-! ## Rules -/

section Rules

variable {tokens given : List Token} {p : Place} {rest : List Char}

theorem isDeep_cons {column indent : Nat} (outer : List Nat) (hle : indent ≤ column) :
    IsDeep column (indent :: outer) := by
  rintro other ⟨⟩
  exact hle

/-- The patterns of a rule, on their own line. -/
theorem scans_patterns (patterns : List String) (hp : p.column = 0)
    (hscans : ∀ q : Place, q.column = 0 →
      Scans (outside true [4, 2, 0]
        ((.key :: .text patternsField true :: .value :: listTokens patterns).reverse ++ tokens)
        q rest) given) :
    Scans (outside true [4, 2, 0] tokens p
      (' ' :: ' ' :: ' ' :: ' ' :: (yamlLine patternsField (list patterns) ++ rest))) given := by
  have hcolumn : p.next.next.next.next.column = 4 := congrArg (· + 4) hp
  have hopened : opened .blockMappingStart p.next.next.next.next.column [4, 2, 0] tokens =
      ([4, 2, 0], tokens) := by
    rw [hcolumn]
    rfl
  refine scans_space (scans_space (scans_space (scans_space ?_)))
  refine scans_listLine (by decide) (isDeep_cons _ (Nat.le_of_eq hcolumn.symm)) patterns ?_
  rw [hopened]
  exact hscans

/-- A rule behind its dash. -/
theorem scans_ruleBody (rule : Rule) (hp : p.column = 3)
    (hscans : ∀ q : Place, q.column = 0 →
      Scans (outside true [4, 2, 0] ((ruleStart rule).reverse ++ tokens) q rest) given) :
    Scans (outside true [2, 0] (.blockEntry :: tokens) p
      (' ' :: (yamlLine categoryField (quoted rule.category.key) ++
        ' ' :: ' ' :: ' ' :: ' ' :: (yamlLine patternsField (list rule.patterns) ++ rest))))
      given := by
  have hcolumn : p.next.column = 4 := congrArg (· + 1) hp
  have hopened : opened .blockMappingStart p.next.column [2, 0] (.blockEntry :: tokens) =
      ([4, 2, 0], .blockMappingStart :: .blockEntry :: tokens) := by
    rw [hcolumn]
    rfl
  refine scans_space ?_
  refine scans_textLine (by decide) (isDeep_cons _ (by omega)) rule.category.key fun q hq => ?_
  rw [hopened]
  refine scans_patterns rule.patterns hq fun q hq => ?_
  simpa [ruleStart] using hscans q hq

theorem yamlRule_append (rule : Rule) (rest : List Char) : yamlRule rule ++ rest =
    ' ' :: ' ' :: '-' :: ' ' :: (yamlLine categoryField (quoted rule.category.key) ++
      ' ' :: ' ' :: ' ' :: ' ' :: (yamlLine patternsField (list rule.patterns) ++ rest)) := by
  unfold yamlRule
  rw [List.append_assoc, List.append_assoc, List.append_assoc]
  rfl

/-- The first rule opens the sequence of rules. -/
theorem scans_firstRule (rule : Rule) (hp : p.column = 0)
    (hscans : ∀ q : Place, q.column = 0 → Scans (outside true [4, 2, 0]
      ((.blockSequenceStart :: ruleStart rule).reverse ++ tokens) q rest) given) :
    Scans (outside true [0] tokens p (yamlRule rule ++ rest)) given := by
  have hcolumn : p.next.next.column = 2 := congrArg (· + 2) hp
  have hclose : Scanner.closeDeeper p.next.next.column tokens [0] = ([0], tokens) := by
    rw [hcolumn]
    rfl
  have hopened : opened .blockSequenceStart p.next.next.column [0] tokens =
      ([2, 0], .blockSequenceStart :: tokens) := by
    rw [hcolumn]
    rfl
  rw [yamlRule_append]
  refine scans_space (scans_space ?_)
  refine scans_dash (by omega) hclose (isDeep_cons _ (Nat.zero_le _)) ?_
  rw [hopened]
  refine scans_ruleBody rule (congrArg (· + 1) hcolumn) fun q hq => ?_
  simpa using hscans q hq

/-- Each further rule ends the mapping of the rule before. -/
theorem scans_nextRule (rule : Rule) (hp : p.column = 0)
    (hscans : ∀ q : Place, q.column = 0 → Scans (outside true [4, 2, 0]
      ((.blockEnd :: ruleStart rule).reverse ++ tokens) q rest) given) :
    Scans (outside true [4, 2, 0] tokens p (yamlRule rule ++ rest)) given := by
  have hcolumn : p.next.next.column = 2 := congrArg (· + 2) hp
  have hclose : Scanner.closeDeeper p.next.next.column tokens [4, 2, 0] =
      ([2, 0], .blockEnd :: tokens) := by
    rw [hcolumn]
    rfl
  have hopened : opened .blockSequenceStart p.next.next.column [2, 0] (.blockEnd :: tokens) =
      ([2, 0], .blockEnd :: tokens) := by
    rw [hcolumn]
    rfl
  rw [yamlRule_append]
  refine scans_space (scans_space ?_)
  refine scans_dash (by omega) hclose (isDeep_cons _ (Nat.le_of_eq hcolumn.symm)) ?_
  rw [hopened]
  refine scans_ruleBody rule (congrArg (· + 1) hcolumn) fun q hq => ?_
  simpa using hscans q hq

/-- Behind a rule, the other rules are scanned and all collections are closed. -/
theorem scans_nextRules (rules : List Rule) (hp : p.column = 0) :
    Scans (outside true [4, 2, 0] tokens p (rules.flatMap yamlRule))
      (tokens.reverse ++ .blockEnd :: (rules.flatMap ruleTokens ++
        [.blockEnd, .blockEnd, .streamEnd])) := by
  -- The rule before stays open until the next dash or the end, which closes all the rest.
  induction rules generalizing tokens p with
  | nil => simpa using scans_end [4, 2, 0] tokens p
  | cons rule rules ih =>
      rw [List.flatMap_cons]
      refine scans_nextRule rule hp fun q hq => ?_
      have hmore := @ih ((ruleStart rule).reverse ++ .blockEnd :: tokens) q hq
      simpa [ruleTokens] using hmore

theorem scans_rules {rules : List Rule} (hrules : rules ≠ []) (hp : p.column = 0) :
    Scans (outside true [0] tokens p (rules.flatMap yamlRule))
      (tokens.reverse ++ .blockSequenceStart :: (rules.flatMap ruleTokens ++
        [.blockEnd, .blockEnd, .streamEnd])) := by
  obtain ⟨rule, others, rfl⟩ := List.exists_cons_of_ne_nil hrules
  rw [List.flatMap_cons]
  refine scans_firstRule rule hp fun q hq => ?_
  have hmore := @scans_nextRules ((ruleStart rule).reverse ++ .blockSequenceStart :: tokens) q
    others hq
  simpa [ruleTokens] using hmore

end Rules

/-! ## Settings -/

section Settings

variable {tokens started : List Token} {p : Place} {indents : List Nat}

/-- The line of the rules opens the mapping of the settings if no line before did. -/
theorem scans_yamlRules (hp : p.column = 0) (hdeep : IsDeep 0 indents)
    (hopened : opened .blockMappingStart 0 indents tokens = ([0], started)) {rules : List Rule}
    (hrules : rules ≠ []) :
    Scans (outside true indents tokens p (yamlRules rules))
      (started.reverse ++ (rulesTokens rules ++ [.blockEnd, .streamEnd])) := by
  have htext : yamlRules rules = "rules".toList ++ ':' :: '\n' :: rules.flatMap yamlRule := by
    rw [yamlRules, if_neg hrules]
    rfl
  rw [htext]
  refine scans_key (by decide) (.inr rfl) (hp ▸ hdeep) fun q _ => scans_lineFeed ?_
  rw [hp, hopened]
  have hmore := @scans_rules (.value :: .text "rules" true :: .key :: started) (q.nextLine 1)
    rules hrules rfl
  simpa [rulesTokens, hrules] using hmore

/-- Within the mapping of the settings, the rest of the text is scanned. -/
theorem scans_lines {l : List (String × String)} (hl : ∀ entry ∈ l, IsWord entry.1)
    (rules : List Rule) (hp : p.column = 0) :
    Scans (outside true [0] tokens p
      (l.flatMap (fun entry => yamlLine entry.1 (quoted entry.2)) ++ yamlRules rules))
      (tokens.reverse ++ (l.flatMap entryTokens ++ rulesTokens rules ++
        [.blockEnd, .streamEnd])) := by
  induction l generalizing tokens p with
  | nil =>
      by_cases hrules : rules = []
      · subst hrules
        simpa [yamlRules, rulesTokens] using scans_end [0] tokens p
      · simpa using scans_yamlRules hp (isDeep_cons [] (Nat.le_refl 0)) rfl hrules
  | cons entry l ih =>
      obtain ⟨hentry, hl⟩ := List.forall_mem_cons.mp hl
      have hdeep : IsDeep p.column [0] := isDeep_cons [] (Nat.zero_le _)
      have hopened : opened .blockMappingStart p.column [0] tokens = ([0], tokens) := by
        rw [hp]
        rfl
      rw [List.flatMap_cons, List.append_assoc]
      refine scans_textLine hentry hdeep entry.2 fun q hq => ?_
      rw [hopened]
      have hmore := @ih ((entryTokens entry).reverse ++ tokens) q hl hq
      simpa using hmore

end Settings

theorem isWord_of_mem_entries {s : Settings} :
    ∀ entry ∈ entries s, IsWord entry.1 := by
  have hnames : ∀ name ∈ fieldNames, IsWord name := by decide
  exact fun entry hentry => hnames _ (mem_fieldNames_of_mem_entries hentry)

theorem scans_settings (s : Settings) :
    Scans (outside true [] [] {} (yaml s).toList) (tokensOf s) := by
  have hwords := @isWord_of_mem_entries s
  have hnone : IsDeep 0 [] := by rintro indent ⟨⟩
  have hopened : opened .blockMappingStart 0 [] [] = ([0], [.blockMappingStart]) := rfl
  rw [yaml, String.toList_ofList, tokensOf]
  -- The first line opens the mapping, be it of a setting or of the rules.
  cases hentries : entries s with
  | nil =>
      by_cases hrules : s.rules = []
      · rw [hrules]
        exact scans_end [] [] {}
      · have hrest :=
          @scans_yamlRules [] [.blockMappingStart] {} [] rfl hnone hopened s.rules hrules
        simpa [hrules] using hrest
  | cons entry l =>
      rw [hentries] at hwords
      obtain ⟨hentry, hl⟩ := List.forall_mem_cons.mp hwords
      rw [List.flatMap_cons, List.append_assoc]
      refine scans_textLine hentry hnone entry.2 fun q hq => ?_
      have hmore := @scans_lines ((entryTokens entry).reverse ++ [.blockMappingStart]) q l hl
        s.rules hq
      simpa [hopened] using hmore

theorem ofSymbols_yaml (s : Settings) :
    Tokens.ofSymbols (symbolsFrom {} (yaml s).toList) = ⟨tokensOf s, true⟩ :=
  scans_settings s _ (Nat.le_refl _)

end TimingReport.Settings
