import TimingReport.Proofs.Outcome
import TimingReport.Proofs.Settings.TomlLines
import TimingReport.Settings.Toml

/-!
# Settings read from their TOML text

The lines that settings are written as in TOML give the statements of the document, these its
entries, and the entries the settings.
-/

namespace TimingReport.Settings

open TimingReport.Toml Write

/-! ## Entries -/

/-- The entry of a setting or of a rule's category. -/
def textEntry (entry : String × String) : String × Node := (entry.1, .text entry.2)

/-- The entries of a rule's table. -/
def ruleEntries (rule : Rule) : Entries := [
  (categoryField, .text rule.category.key), (patternsField, .array (rule.patterns.map .text))]

/-- The entry of tables in double brackets, which is there once there is one of them. -/
def rulesEntry (tables : List Entries) : Entries :=
  if tables = [] then [] else [("rules", .tables tables)]

/-- The entries of the settings' table. -/
def tableOf (s : Settings) : Entries :=
  (entries s).map textEntry ++ rulesEntry (s.rules.map ruleEntries)

/-- The value of an entry. -/
def assign (entry : String × Node) : Assignment := ⟨[entry.1], entry.2⟩

/-- The statements that a rule is written as. -/
def ruleStatements (rule : Rule) : List Statement :=
  .listHeader ["rules"] :: (ruleEntries rule).map (.value ∘ assign)

/-- The statements that settings are written as. -/
def statementsOf (s : Settings) : List Statement :=
  ((entries s).map textEntry).map (.value ∘ assign) ++ s.rules.flatMap ruleStatements

/-- The lines of a rule are read as its statements. -/
theorem lines_tomlRule (rule : Rule) : Lines (tomlRule rule) (ruleStatements rule) :=
  (lines_rulesHeader.append (lines_text (by decide) rule.category.key)).append
    (lines_list (by decide) rule.patterns)

/-- The lines of settings are read as their statements. -/
theorem lines_toml (s : Settings) : Lines (toml s).toList (statementsOf s) := by
  rw [toml, String.toList_ofList, statementsOf]
  refine Lines.append ?_ (Lines.flatMap _ fun rule _ => lines_tomlRule rule)
  rw [← List.flatMap_singleton' ((entries s).map textEntry |>.map _), List.map_map,
    List.flatMap_map]
  have hnames : ∀ name ∈ fieldNames, IsKeyName name := by decide
  exact Lines.flatMap _ fun entry hentry =>
    lines_text (hnames _ (mem_fieldNames_of_mem_entries hentry)) entry.2

/-- Assignments before the first header belong to the top. -/
theorem divide_values (values : Entries) (rest : List Statement) :
    divide (values.map (.value ∘ assign) ++ rest) =
      (values.map assign ++ (divide rest).1, (divide rest).2) := by
  induction values with
  | nil => rfl
  | cons entry values ih => simp [divide, ih]

/-- The part of a rule. -/
def rulePart (rule : Rule) : Part := ⟨["rules"], true, (ruleEntries rule).map assign⟩

/-- Every header of a rule starts a part of its own. -/
theorem divide_rules (rules : List Rule) :
    divide (rules.flatMap ruleStatements) = ([], rules.map rulePart) := by
  induction rules with
  | nil => rfl
  | cons rule rules ih =>
      rw [List.flatMap_cons, ruleStatements, List.cons_append, divide, divide_values, ih,
        List.append_nil]
      rfl

/-- A new name is added with its value. -/
theorem apply_assign {entries : Entries} {entry : String × Node}
    (hfree : entries.lookup entry.1 = none) :
    Assignment.apply entries (assign entry) = some (entries ++ [entry]) := by
  simp [Assignment.apply, assign, define, within, hfree, Entries.append]

/-- New names are added one after the other. -/
theorem foldlM_apply_assign {started added : Entries}
    (hnodup : ((started ++ added).map Prod.fst).Nodup) :
    (added.map assign).foldlM Assignment.apply started = some (started ++ added) := by
  induction added generalizing started with
  | nil => simp
  | cons entry added ih =>
      have hfree : started.lookup entry.1 = none := by
        rw [List.map_append, List.map_cons] at hnodup
        rw [List.lookup_eq_none_iff]
        intro other hother
        have hne : other.1 ≠ entry.1 :=
          (List.nodup_append.mp hnodup).2.2 _ (List.mem_map_of_mem hother) _ List.mem_cons_self
        simpa using Ne.symm hne
      have hstep : started ++ entry :: added = started ++ [entry] ++ added := by simp
      rw [hstep] at hnodup ⊢
      rw [List.map_cons, List.foldlM_cons, apply_assign hfree, Option.bind_eq_bind,
        Option.bind_some, ih hnodup]

section AddTable

variable {key : String} {entries added : Entries} {fill : Entries → Option Entries}

/-- The first table of a list starts the list. -/
theorem addTable_first (hfree : entries.lookup key = none) (hfill : fill [] = some added) :
    addTable [key] fill entries = some (entries ++ [(key, .tables [added])]) := by
  simp [addTable, within, hfree, hfill, Entries.append]

/-- Every further table is added to the list. -/
theorem addTable_next (hfree : entries.lookup key = none) (hfill : fill [] = some added)
    (tables : List Entries) :
    addTable [key] fill (entries ++ [(key, .tables tables)]) =
      some (entries ++ [(key, .tables (tables ++ [added]))]) := by
  have hlookup : (entries ++ [(key, Node.tables tables)]).lookup key = some (.tables tables) := by
    simp [List.lookup_append, hfree]
  -- The key is not among the entries before, so only the last one is replaced.
  have hkept (node : Node) : Entries.replace key node entries = entries := by
    refine (List.map_congr_left fun entry hentry => if_neg ?_).trans (List.map_id entries)
    rintro rfl
    simpa using List.lookup_eq_none_iff.mp hfree entry hentry
  have hreplace (node : Node) :
      Entries.replace key node (entries ++ [(key, .tables tables)]) = entries ++ [(key, node)] := by
    rw [Entries.replace, List.map_append, ← Entries.replace, hkept]
    simp
  simp only [addTable, List.dropLast_singleton, within, List.getLast?_singleton,
    Option.bind_eq_bind, Option.bind_some, hlookup, hfill, hreplace]
  rfl

end AddTable

/-- The part of a rule adds one table. -/
theorem partApply_rulePart {top : Entries} (hfree : top.lookup "rules" = none)
    (tables : List Entries) (rule : Rule) :
    Part.apply (top ++ rulesEntry tables) (rulePart rule) =
      some (top ++ rulesEntry (tables ++ [ruleEntries rule])) := by
  have hnodup : (([] ++ ruleEntries rule).map Prod.fst).Nodup :=
    show [categoryField, patternsField].Nodup by decide
  have hfill : ((ruleEntries rule).map assign).foldlM Assignment.apply [] =
      some (ruleEntries rule) :=
    foldlM_apply_assign hnodup
  show addTable ["rules"] (((ruleEntries rule).map assign).foldlM Assignment.apply) _ = _
  by_cases htables : tables = []
  · subst htables
    simpa [rulesEntry] using addTable_first hfree hfill
  · simpa [rulesEntry, htables] using addTable_next hfree hfill tables

/-- The parts of rules add their tables in order. -/
theorem foldlM_partApply {top : Entries} (hfree : top.lookup "rules" = none)
    (tables : List Entries) (rules : List Rule) :
    (rules.map rulePart).foldlM Part.apply (top ++ rulesEntry tables) =
      some (top ++ rulesEntry (tables ++ rules.map ruleEntries)) := by
  induction rules generalizing tables with
  | nil => simp
  | cons rule rules ih =>
      rw [List.map_cons, List.foldlM_cons, partApply_rulePart hfree, Option.bind_eq_bind,
        Option.bind_some, ih, List.map_cons, List.append_assoc]
      rfl

/-- The statements of settings make their table. -/
theorem entriesOf_statementsOf (s : Settings) : entriesOf (statementsOf s) = some (tableOf s) := by
  have hnames : ((entries s).map textEntry).map Prod.fst = (entries s).map Prod.fst := by
    rw [List.map_map]
    rfl
  have hnodup := nodup_names s
  rw [← hnames, List.nodup_append] at hnodup
  obtain ⟨htop, -, hrules⟩ := hnodup
  have hfree : ((entries s).map textEntry).lookup "rules" = none := by
    rw [List.lookup_eq_none_iff]
    intro entry hentry
    simpa using Ne.symm (hrules _ (List.mem_map_of_mem hentry) _ List.mem_cons_self)
  have hvalues : (((entries s).map textEntry).map assign).foldlM Assignment.apply [] =
      some ((entries s).map textEntry) :=
    foldlM_apply_assign (by simpa using htop)
  have hparts := foldlM_partApply hfree [] s.rules
  rw [show rulesEntry [] = [] from rfl, List.append_nil, List.nil_append] at hparts
  simp only [entriesOf, statementsOf, divide_values, divide_rules, List.append_nil,
    Option.bind_eq_bind, hvalues, Option.bind_some, hparts]
  rfl

/-- The document of the settings' text holds their entries. -/
theorem document_toml (s : Settings) : Toml.document (toml s) = some (tableOf s) := by
  have hlines := lines_toml s
  obtain ⟨fuel, hfuel⟩ := Nat.exists_eq_add_of_le' hlines.length_le
  -- There are no more statements than characters, so one step is left to meet the end.
  have hread : statements ((toml s).toList.length + 1) (toml s).toList = some (statementsOf s) := by
    have hall := hlines.statements_append (fuel + 1) []
    rw [List.append_nil, show fuel + 1 + (statementsOf s).length = (toml s).toList.length + 1 by
      omega] at hall
    rw [hall]
    simp [statements, skipSpace]
  have hstart : ∀ c ∈ (toml s).toList.head?, c ≠ byteOrderMark := by
    intro c hc
    rintro rfl
    exact absurd (plain_toml s _ (List.mem_of_mem_head? hc)) (by decide)
  have hdocument : Toml.document (toml s) =
      statements ((toml s).toList.length + 1) (toml s).toList >>= entriesOf := by
    rw [Toml.document]
    cases htext : (toml s).toList with
    | nil => rfl
    | cons c rest => simp only [if_neg (hstart c (by simp [htext]))]
  rw [hdocument, hread, Option.bind_eq_bind, Option.bind_some, entriesOf_statementsOf]

/-! ## Settings -/

theorem choiceOfNode_category (category : Category) :
    choiceOfNode categoryChoice (.text category.key) = .ok category := by
  cases category <;> rfl

theorem patternsOfNode_array (patterns : List String) :
    patternsOfNode (.array (patterns.map .text)) = .ok patterns := by
  have hread (text : String) : textOfNode wantedText (.text text) = .ok text := rfl
  exact Outcome.mapM_map_eq_ok hread patterns

/-- A rule is read back from its table. -/
theorem ruleOfNode_table (rule : Rule) :
    ruleOfNode (.table .header (ruleEntries rule)) = .ok rule := by
  have hcategory (draft : RuleDraft) :
      draft.withEntry (categoryField, .text rule.category.key) =
        .ok { draft with category := some rule.category } := by
    rw [RuleDraft.withEntry, if_pos rfl, choiceOfNode_category]
    rfl
  have hpatterns (draft : RuleDraft) :
      draft.withEntry (patternsField, .array (rule.patterns.map .text)) =
        .ok { draft with patterns := rule.patterns } := by
    have hname : patternsField ≠ categoryField := by decide
    rw [RuleDraft.withEntry, if_neg hname, if_pos rfl, patternsOfNode_array]
    rfl
  rw [ruleOfNode, ruleEntries, List.foldlM_cons, hcategory]
  simp only [List.foldlM_cons, List.foldlM_nil, bind, Except.bind, hpatterns, pure, Except.pure]
  rfl

/-- The rules are read back from the list of their tables. -/
theorem withEntry_rules (s : Settings) (rules : List Rule) :
    s.withEntry ("rules", .tables (rules.map ruleEntries)) = .ok { s with rules := rules } := by
  have hread : ((rules.map ruleEntries).map (Node.table .header)).mapM ruleOfNode = .ok rules := by
    rw [List.map_map]
    exact Outcome.mapM_map_eq_ok ruleOfNode_table rules
  show (((rules.map ruleEntries).map (Node.table .header)).mapM ruleOfNode >>= fun rules =>
    Except.ok { s with rules := rules }) = _
  rw [hread]
  rfl

theorem withEntry_format (s : Settings) (format : Format) :
    s.withEntry ("format", .text format.name) = .ok { s with format } := by
  cases format <;> rfl

/-- Each setting that is given fills its own field. -/
theorem foldlM_withEntry_entries (s : Settings) :
    ((entries s).map textEntry).foldlM withEntry {} = .ok { s with rules := [] } := by
  obtain ⟨input, output, format, title, rules⟩ := s
  have hinput : ((given "input" input).map textEntry).foldlM withEntry {} = .ok { input } := by
    cases input <;> rfl
  have houtput : ((given "output" output).map textEntry).foldlM withEntry { input } =
      .ok { input, output } := by
    cases output <;> rfl
  have hformat : ((given "format" (format.map Format.name)).map textEntry).foldlM withEntry
      { input, output } = .ok { input, output, format } := by
    cases format with
    | none => rfl
    | some format => exact congrArg (· >>= pure) (withEntry_format _ format)
  have htitle : ((given "title" title).map textEntry).foldlM withEntry { input, output, format } =
      .ok { input, output, format, title } := by
    cases title <;> rfl
  simp only [entries, List.flatten_cons, List.flatten_nil, List.append_nil, List.map_append,
    List.foldlM_append, hinput, houtput, hformat, htitle, bind, Except.bind]

/-- Settings are what their text in TOML holds. -/
theorem decodeToml_toml (s : Settings) : decodeToml (toml s) = .ok s := by
  simp only [decodeToml, document_toml, tableOf, List.foldlM_append, foldlM_withEntry_entries]
  by_cases hrules : s.rules = []
  · obtain ⟨input, output, format, title, rules⟩ := s
    subst hrules
    rfl
  · rw [rulesEntry, if_neg (by simpa using hrules)]
    show withEntry { s with rules := [] } _ >>= pure = _
    rw [withEntry_rules]
    rfl

end TimingReport.Settings
