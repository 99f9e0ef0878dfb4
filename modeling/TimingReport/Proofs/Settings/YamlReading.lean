import TimingReport.Proofs.Settings.YamlEvents
import TimingReport.Settings.Yaml

/-!
# Settings read from their YAML text

What is said of a reader is what it makes of the events of a value, whatever events stand
behind them. The members of a mapping are read one after the other, in any order.
-/

namespace TimingReport.Settings.Yaml

open TimingReport.Yaml (Event Document)

/-! ## Values -/

/-- The reader takes the events for the value and leaves what stands behind them. -/
def Reads {α : Type} (read : Reader α) (events : List (Event Empty)) (a : α) : Prop :=
  ∀ document rest, read document (events.map widen ++ rest) = .ok (a, rest)

theorem reads_text (wanted v : String) : Reads (text wanted) [textEvent v] v :=
  fun _ _ => rfl

/-- A text between quotes is never taken for an absent value. -/
theorem Reads.optional {α : Type} {read : Reader α} {text : String} {a : α}
    (hread : Reads read [textEvent text] a) :
    Reads (optional read) [textEvent text] (some a) := by
  intro document rest
  have hvalue : read document (.text none none text false :: rest) = .ok (a, rest) :=
    hread document rest
  show (read document (.text none none text false :: rest)).map _ = _
  rw [hvalue]
  rfl

/-- A word that stands for a choice is read as it. -/
theorem reads_chosen {α : Type} {choice : Choice α} {word : String} {a : α}
    (hword : choice.ofWord word = .ok a) : Reads (chosen choice) [textEvent word] a := by
  intro document rest
  show (choice.ofWord word).map _ = _
  rw [hword]
  rfl

/-- The events do not start with the end of a sequence. -/
def IsValue (events : List (Event Empty)) : Prop :=
  ∃ event rest, events = event :: rest ∧ event ≠ .sequenceEnd

theorem widen_ne_sequenceEnd {event : Event Empty} (hevent : event ≠ .sequenceEnd) :
    (widen event : Event Nat) ≠ .sequenceEnd := by
  cases event with
  | «alias» anchor => exact nomatch anchor
  | sequenceEnd => exact absurd rfl hevent
  | _ => simp [widen]

/-- There are at most as many parts as events. -/
theorem length_le_flatMap {α β : Type} {write : α → List β} (hwrite : ∀ a, write a ≠ [])
    (l : List α) : l.length ≤ (l.flatMap write).length := by
  induction l with
  | nil => exact Nat.le_refl 0
  | cons a l ih =>
      have hpos := List.length_pos_iff.mpr (hwrite a)
      rw [List.flatMap_cons, List.length_append, List.length_cons]
      omega

/-- Items are read one after the other up to the end of the sequence. -/
theorem items_eq_ok {α : Type} {read : Reader α} {write : α → List (Event Empty)}
    (hread : ∀ a, Reads read (write a) a) (hvalue : ∀ a, IsValue (write a)) (l : List α)
    {fuel : Nat} (hfuel : l.length < fuel) (document rest : List (Event Nat)) :
    items read fuel document ((l.flatMap write).map widen ++ .sequenceEnd :: rest) =
      .ok (l, rest) := by
  induction l generalizing fuel with
  | nil =>
      obtain ⟨fuel, rfl⟩ := Nat.exists_eq_add_one_of_ne_zero (Nat.ne_zero_of_lt hfuel)
      rfl
  | cons a l ih =>
      obtain ⟨fuel, rfl⟩ := Nat.exists_eq_add_one_of_ne_zero (Nat.ne_zero_of_lt hfuel)
      have hmore := ih (Nat.lt_of_succ_lt_succ hfuel)
      have ha := hread a document ((l.flatMap write).map widen ++ .sequenceEnd :: rest)
      rw [List.flatMap_cons, List.map_append, List.append_assoc]
      rw [items]
      · simp only [ha, hmore, bind, Except.bind]
        rfl
      · intro tail hend
        obtain ⟨event, behind, hevents, hne⟩ := hvalue a
        rw [hevents] at hend
        exact widen_ne_sequenceEnd hne (List.cons.inj hend).1

/-- A sequence is read if each of its items is. -/
theorem Reads.list {α : Type} {read : Reader α} {write : α → List (Event Empty)}
    (hread : ∀ a, Reads read (write a) a) (hvalue : ∀ a, IsValue (write a)) (l : List α) :
    Reads (list read) (.sequenceStart none none :: l.flatMap write ++ [.sequenceEnd]) l := by
  intro document rest
  have hlength := length_le_flatMap (fun a => by
    obtain ⟨event, behind, hevents, -⟩ := hvalue a
    exact hevents ▸ List.cons_ne_nil _ _) l
  have hevents :
      (Event.sequenceStart none none :: l.flatMap write ++ [Event.sequenceEnd]).map widen ++ rest =
      Event.sequenceStart none none :: ((l.flatMap write).map widen ++ .sequenceEnd :: rest) := by
    simp [widen]
  rw [hevents]
  refine items_eq_ok hread hvalue l ?_ document rest
  rw [List.length_append, List.length_map]
  omega

/-! ## Mappings -/

/-- The members turn one record into another, field by field. -/
inductive Fills {σ : Type} (fields : List (Field σ)) :
    σ → List (String × List (Event Empty)) → σ → Prop
  | nil (r : σ) : Fills fields r [] r
  | cons {r next last : σ} {name : String} {value : List (Event Empty)}
      {more : List (String × List (Event Empty))} {field : Field σ}
      (hfield : fields.find? (·.name == name) = some field)
      (hread : Reads (field.read r) value next) (hmore : Fills fields next more last) :
      Fills fields r ((name, value) :: more) last

/-- The events of a member. -/
def memberEvents (member : String × List (Event Empty)) : List (Event Empty) :=
  keyEvent member.1 :: member.2

theorem memberEvents_ne_nil (member : String × List (Event Empty)) : memberEvents member ≠ [] :=
  List.cons_ne_nil _ _

/-- Members fill a record in parts. -/
theorem Fills.append {σ : Type} {fields : List (Field σ)} {r next last : σ}
    {first second : List (String × List (Event Empty))} (hfirst : Fills fields r first next)
    (hsecond : Fills fields next second last) : Fills fields r (first ++ second) last := by
  induction hfirst with
  | nil => exact hsecond
  | cons hfield hread _ ih => exact .cons hfield hread (ih hsecond)

/-- Members with names of their own are read into the record they fill. -/
theorem members_eq_ok {σ : Type} {fields : List (Field σ)} {r last : σ}
    {l : List (String × List (Event Empty))} (hfills : Fills fields r l last) (isOpen : Bool)
    {seen : List String} (hseen : (seen ++ l.map Prod.fst).Nodup) {fuel : Nat}
    (hfuel : l.length < fuel) (document rest : List (Event Nat)) :
    members fields isOpen fuel seen r document
      ((l.flatMap memberEvents).map widen ++ .mappingEnd :: rest) = .ok (last, rest) := by
  induction hfills generalizing seen fuel with
  | nil r =>
      obtain ⟨fuel, rfl⟩ := Nat.exists_eq_add_one_of_ne_zero (Nat.ne_zero_of_lt hfuel)
      rfl
  | @cons r next last name value more field hfield hread hmore ih =>
      obtain ⟨fuel, rfl⟩ := Nat.exists_eq_add_one_of_ne_zero (Nat.ne_zero_of_lt hfuel)
      -- The names read so far move on with the list, so that none is met twice.
      have hnodup : (name :: seen ++ more.map Prod.fst).Nodup :=
        List.perm_middle.nodup_iff.mp hseen
      have hfresh : seen.contains name = false := by
        simpa using fun hmem => (List.nodup_cons.mp hnodup).1 (List.mem_append_left _ hmem)
      have hrest := ih hnodup (Nat.lt_of_succ_lt_succ hfuel)
      have hvalue := hread document ((more.flatMap memberEvents).map widen ++ .mappingEnd :: rest)
      have hevents :
          (((name, value) :: more).flatMap memberEvents).map widen ++ .mappingEnd :: rest =
          .text none none name true :: (value.map widen ++
            ((more.flatMap memberEvents).map widen ++ .mappingEnd :: rest)) := by
        simp [memberEvents, keyEvent, widen]
      have hkey (events : List (Event Nat)) :
          text "field identifier" document (.text none none name true :: events) =
            .ok (name, events) := rfl
      rw [hevents, members]
      · simp only [hkey, hfield, hfresh, hvalue, hrest, bind, Except.bind]
        rfl
      · rintro tail ⟨⟩

/-- A mapping is read as the record that its members fill. -/
theorem Fills.record {σ : Type} {fields : List (Field σ)} {empty last : σ}
    {l : List (String × List (Event Empty))} (hfills : Fills fields empty l last)
    (hnames : (l.map Prod.fst).Nodup) (wanted : String) (isOpen : Bool) :
    Reads (record wanted fields isOpen empty)
      (.mappingStart none none :: l.flatMap memberEvents ++ [.mappingEnd]) last := by
  intro document rest
  have hevents :
      (Event.mappingStart none none :: l.flatMap memberEvents ++ [Event.mappingEnd]).map widen ++
        rest =
      .mappingStart none none :: ((l.flatMap memberEvents).map widen ++ .mappingEnd :: rest) := by
    simp [widen]
  have hlength : l.length ≤ (l.flatMap memberEvents).length :=
    length_le_flatMap memberEvents_ne_nil l
  have hseen : (([] : List String) ++ l.map Prod.fst).Nodup := hnames
  rw [hevents]
  refine members_eq_ok hfills isOpen hseen ?_ document rest
  rw [List.length_append, List.length_map]
  omega

/-! ## Settings -/

theorem reads_category (category : Category) :
    Reads (chosen categoryChoice) [textEvent category.key] category :=
  reads_chosen (by cases category <;> rfl)

theorem reads_format (format : Format) :
    Reads (chosen formatChoice) [textEvent format.name] format :=
  reads_chosen (by cases format <;> rfl)

theorem reads_patterns (patterns : List String) :
    Reads (list (text wantedText)) (listEvents patterns) patterns := by
  have hvalue (v : String) : IsValue [textEvent v] := ⟨textEvent v, [], rfl, by rintro ⟨⟩⟩
  have hread := Reads.list (reads_text wantedText) hvalue patterns
  rwa [← List.map_eq_flatMap] at hread

/-- A field is read by its own reader. -/
theorem reads_field {σ α : Type} (name : String) {read : Reader α} (set : σ → α → σ)
    {events : List (Event Empty)} {a : α} (hread : Reads read events a) (r : σ) :
    Reads ((Field.of name read set).read r) events (set r a) := by
  intro document rest
  show (read document (events.map widen ++ rest)).map _ = _
  rw [hread]
  rfl

/-- The members of a rule. -/
def ruleMembers (rule : Rule) : List (String × List (Event Empty)) := [
  (categoryField, [textEvent rule.category.key]), (patternsField, listEvents rule.patterns)]

/-- The members of a rule fill it. -/
theorem fills_rule (rule : Rule) :
    Fills ruleFields {} (ruleMembers rule) ⟨some rule.category, rule.patterns⟩ :=
  .cons rfl (reads_field _ _ (reads_category rule.category) _)
    (.cons rfl (reads_field _ _ (reads_patterns rule.patterns) _) (.nil _))

/-- A rule is read back from its events. -/
theorem reads_rule (rule : Rule) : Reads Yaml.rule (ruleEvents rule) rule := by
  have hnames : ((ruleMembers rule).map Prod.fst).Nodup :=
    show [categoryField, patternsField].Nodup by decide
  have hevents : ruleEvents rule =
      .mappingStart none none :: (ruleMembers rule).flatMap memberEvents ++ [.mappingEnd] := by
    simp [ruleEvents, ruleMembers, memberEvents, entryEvents]
  intro document rest
  have hrecord := (fills_rule rule).record hnames wantedRule true document rest
  rw [hevents, Yaml.rule, hrecord]
  rfl

theorem isValue_ruleEvents (rule : Rule) : IsValue (ruleEvents rule) :=
  ⟨.mappingStart none none, _, rfl, by rintro ⟨⟩⟩

/-- The member of a setting. -/
def entryMember (entry : String × String) : String × List (Event Empty) :=
  (entry.1, [textEvent entry.2])

/-- The member of the rules. -/
def rulesMember (rules : List Rule) : List (String × List (Event Empty)) :=
  if rules = [] then []
  else [("rules", .sequenceStart none none :: rules.flatMap ruleEvents ++ [.sequenceEnd])]

/-- Each setting that is given fills its own field. -/
theorem fills_entries (s : Settings) :
    Fills settingsFields {} ((Write.entries s).map entryMember) { s with rules := [] } := by
  obtain ⟨input, output, format, title, rules⟩ := s
  have hinput : Fills settingsFields {} ((Write.given "input" input).map entryMember)
      { input } := by
    cases input with
    | none => exact .nil _
    | some input => exact .cons rfl (reads_field _ _ (reads_text _ input).optional _) (.nil _)
  have houtput : Fills settingsFields { input } ((Write.given "output" output).map entryMember)
      { input, output } := by
    cases output with
    | none => exact .nil _
    | some output => exact .cons rfl (reads_field _ _ (reads_text _ output).optional _) (.nil _)
  have hformat : Fills settingsFields { input, output }
      ((Write.given "format" (format.map Format.name)).map entryMember)
      { input, output, format } := by
    cases format with
    | none => exact .nil _
    | some format => exact .cons rfl (reads_field _ _ (reads_format format).optional _) (.nil _)
  have htitle : Fills settingsFields { input, output, format }
      ((Write.given "title" title).map entryMember) { input, output, format, title } := by
    cases title with
    | none => exact .nil _
    | some title => exact .cons rfl (reads_field _ _ (reads_text _ title).optional _) (.nil _)
  simpa [Write.entries] using ((hinput.append houtput).append hformat).append htitle

/-- The last member of the settings fills in their rules. -/
theorem fills_rules (s : Settings) :
    Fills settingsFields { s with rules := [] } (rulesMember s.rules) s := by
  by_cases hrules : s.rules = []
  · obtain ⟨input, output, format, title, rules⟩ := s
    subst hrules
    exact .nil _
  · have hread := Reads.list reads_rule isValue_ruleEvents s.rules
    rw [rulesMember, if_neg hrules]
    exact .cons rfl (reads_field _ _ hread _) (.nil _)

/-- The members of settings. -/
def membersOf (s : Settings) : List (String × List (Event Empty)) :=
  (Write.entries s).map entryMember ++ rulesMember s.rules

/-- Settings that state something are one mapping. -/
theorem eventsOf_of_given {s : Settings} (hgiven : ¬ (Write.entries s = [] ∧ s.rules = [])) :
    eventsOf s =
      .mappingStart none none :: (membersOf s).flatMap memberEvents ++ [.mappingEnd] := by
  have hentries : ((Write.entries s).map entryMember).flatMap memberEvents =
      (Write.entries s).flatMap entryEvents :=
    List.flatMap_map ..
  have hrules : (rulesMember s.rules).flatMap memberEvents = rulesEvents s.rules := by
    by_cases hrules : s.rules = []
    · rw [rulesMember, rulesEvents, if_pos hrules, if_pos hrules]
      rfl
    · rw [rulesMember, rulesEvents, if_neg hrules, if_neg hrules, List.flatMap_singleton]
      rfl
  rw [eventsOf, if_neg hgiven, membersOf, List.flatMap_append, hentries, hrules]
  rfl

/-- No two members of the settings have the same name. -/
theorem nodup_membersOf (s : Settings) : ((membersOf s).map Prod.fst).Nodup := by
  have hrules : ((rulesMember s.rules).map Prod.fst).Sublist ["rules"] := by
    by_cases hrules : s.rules = []
    · rw [rulesMember, if_pos hrules]
      exact List.nil_sublist _
    · rw [rulesMember, if_neg hrules]
      exact List.Sublist.refl _
  rw [membersOf, List.map_append, List.map_map]
  exact (hrules.append_left _).nodup (Write.nodup_names s)

/-- Settings that state nothing are the empty ones. -/
theorem eq_empty_of_entries {s : Settings} (hentries : Write.entries s = [])
    (hrules : s.rules = []) : s = {} := by
  obtain ⟨input, output, format, title, rules⟩ := s
  simp [Write.entries, Write.given] at hentries
  obtain ⟨rfl, rfl, rfl, rfl⟩ := hentries
  subst hrules
  rfl

/-- Settings are what their text in YAML holds. -/
theorem decodeYaml_yaml (s : Settings) : decodeYaml (Write.yaml s) = .ok s := by
  -- An empty text is not a mapping without members, but it stands for the same settings.
  by_cases hempty : Write.entries s = [] ∧ s.rules = []
  · have hevents : eventsOf s = [] := if_pos hempty
    rw [decodeYaml, ofText_yaml, hevents, eq_empty_of_entries hempty.1 hempty.2]
    rfl
  · have hread : Reads Yaml.settings (eventsOf s) s := by
      rw [eventsOf_of_given hempty]
      exact ((fills_entries s).append (fills_rules s)).record (nodup_membersOf s) _ _
    have hsettings := hread ((eventsOf s).map widen) []
    have habsent : Document.isAbsent ⟨(eventsOf s).map widen, true⟩ = false := by
      rw [eventsOf_of_given hempty]
      rfl
    rw [List.append_nil] at hsettings
    rw [decodeYaml, ofText_yaml]
    simp only [habsent, hsettings, bind, Except.bind]
    rfl

end TimingReport.Settings.Yaml
