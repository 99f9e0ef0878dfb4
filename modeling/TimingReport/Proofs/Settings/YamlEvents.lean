import TimingReport.Proofs.Settings.YamlScan
import TimingReport.Yaml.Document

/-!
# The document of settings in YAML

The tokens of settings become the events of one document. No event has an anchor, so the
events are those of any kind of anchors.
-/

namespace TimingReport.Settings

open TimingReport.Yaml Write

/-! ## The events of each part -/

/-- An event without an anchor, taken for one of a document with anchors. -/
def widen {α : Type} : Event Empty → Event α
  | .text _ tag value isPlain => .text none tag value isPlain
  | .alias anchor => nomatch anchor
  | .sequenceStart _ tag => .sequenceStart none tag
  | .sequenceEnd => .sequenceEnd
  | .mappingStart _ tag => .mappingStart none tag
  | .mappingEnd => .mappingEnd

/-- A key. -/
def keyEvent (name : String) : Event Empty := .text none none name true

/-- A text between quotes. -/
def textEvent (text : String) : Event Empty := .text none none text false

/-- The events of a setting. -/
def entryEvents (entry : String × String) : List (Event Empty) := [
  keyEvent entry.1, textEvent entry.2]

/-- The events of a list. -/
def listEvents (texts : List String) : List (Event Empty) :=
  .sequenceStart none none :: texts.map textEvent ++ [.sequenceEnd]

/-- The events of a rule. -/
def ruleEvents (rule : Rule) : List (Event Empty) :=
  .mappingStart none none :: entryEvents (categoryField, rule.category.key)
    ++ keyEvent patternsField :: listEvents rule.patterns ++ [.mappingEnd]

/-- The events of the rules, which are left out if there are none. -/
def rulesEvents (rules : List Rule) : List (Event Empty) :=
  if rules = [] then []
  else keyEvent "rules" :: .sequenceStart none none :: rules.flatMap ruleEvents ++ [.sequenceEnd]

/-- The events of settings, of which a text without any is empty. -/
def eventsOf (s : Settings) : List (Event Empty) :=
  if entries s = [] ∧ s.rules = [] then []
  else .mappingStart none none :: (entries s).flatMap entryEvents ++ rulesEvents s.rules
    ++ [.mappingEnd]

/-! ## The walk over the tokens -/

/-- From the state on, the walk gives these events and leaves these tokens. -/
def Gives (handles : Event.Handles) (s : Event.State) (events : List (Event Empty))
    (left : List Token) : Prop :=
  ∀ fuel, s.tokens.length < fuel → Event.run handles fuel s = (events.map widen, some left)

section Gives

variable {handles : Event.Handles} {tokens rest left : List Token} {stack : List Event.Expected}
  {events : List (Event Empty)}

theorem gives_done : Gives handles ⟨left, []⟩ [] left := by
  intro fuel hfuel
  obtain ⟨fuel, rfl⟩ := Nat.exists_eq_add_one_of_ne_zero (Nat.ne_zero_of_lt hfuel)
  rfl

/-- An event that takes tokens leaves the other events to be given. -/
theorem Gives.of_inside {expected : Event.Expected} {event : Event Empty} {next : Event.State}
    (hgives : Gives handles next events left)
    (hinside : Event.inside handles expected tokens stack = some (widen event, next))
    (hlength : next.tokens.length < tokens.length) :
    Gives handles ⟨tokens, expected :: stack⟩ (event :: events) left := by
  intro fuel hfuel
  obtain ⟨fuel, rfl⟩ := Nat.exists_eq_add_one_of_ne_zero (Nat.ne_zero_of_lt hfuel)
  have hnext : Event.run handles fuel next = (events.map widen, some left) :=
    hgives fuel (by simp only at hfuel; omega)
  simp only [Event.run, hinside, hnext, List.map_cons]

theorem lt_two_more (n : Nat) : n < n + 2 := Nat.lt_add_of_pos_right Nat.two_pos

/-- An entry of a mapping gives two events. -/
theorem gives_entry (entry : String × String)
    (hgives : Gives handles ⟨rest, .blockKey :: stack⟩ events left) :
    Gives handles ⟨entryTokens entry ++ rest, .blockKey :: stack⟩ (entryEvents entry ++ events)
      left := by
  have hvalue : Gives handles ⟨.value :: .text entry.2 false :: rest, .blockValue :: stack⟩
      (textEvent entry.2 :: events) left :=
    hgives.of_inside rfl (lt_two_more _)
  exact hvalue.of_inside rfl (lt_two_more _)

/-- Entries give their events one after the other. -/
theorem gives_entries (l : List (String × String))
    (hgives : Gives handles ⟨rest, .blockKey :: stack⟩ events left) :
    Gives handles ⟨l.flatMap entryTokens ++ rest, .blockKey :: stack⟩
      (l.flatMap entryEvents ++ events) left := by
  induction l with
  | nil => exact hgives
  | cons entry l ih =>
      rw [List.flatMap_cons, List.flatMap_cons, List.append_assoc, List.append_assoc]
      exact gives_entry entry ih

/-- Each further item of a list stands behind a comma. -/
def moreTokens (text : String) : List Token := [.flowEntry, .text text false]

theorem itemTokens_cons (text : String) (texts : List String) :
    itemTokens (text :: texts) = .text text false :: texts.flatMap moreTokens := by
  induction texts generalizing text with
  | nil => rfl
  | cons other texts ih =>
      have hother := ih other
      rw [itemTokens, List.map_cons] at hother
      rw [itemTokens, List.map_cons, List.map_cons, List.intercalate_cons_cons, hother]
      rfl

/-- The texts of a list give their events up to the bracket. -/
theorem gives_more (texts : List String) (hgives : Gives handles ⟨rest, stack⟩ events left) :
    Gives handles ⟨texts.flatMap moreTokens ++ .flowSequenceEnd :: rest, .flowItem false :: stack⟩
      (texts.map textEvent ++ .sequenceEnd :: events) left := by
  induction texts with
  | nil => exact hgives.of_inside rfl (Nat.lt_succ_self _)
  | cons text texts ih => exact ih.of_inside rfl (lt_two_more _)

/-- A list between brackets gives the events of its texts. -/
theorem gives_items (texts : List String) (hgives : Gives handles ⟨rest, stack⟩ events left) :
    Gives handles ⟨itemTokens texts ++ .flowSequenceEnd :: rest, .flowItem true :: stack⟩
      (texts.map textEvent ++ .sequenceEnd :: events) left := by
  cases texts with
  | nil => exact hgives.of_inside rfl (Nat.lt_succ_self _)
  | cons text texts =>
      rw [itemTokens_cons]
      exact (gives_more texts hgives).of_inside rfl (Nat.lt_succ_self _)

/-- A key with a list gives the events of both. -/
theorem gives_list (name : String) (texts : List String)
    (hgives : Gives handles ⟨rest, .blockKey :: stack⟩ events left) :
    Gives handles
      ⟨.key :: .text name true :: .value :: (listTokens texts ++ rest), .blockKey :: stack⟩
      (keyEvent name :: (listEvents texts ++ events)) left := by
  have hlist : Gives handles ⟨.value :: (listTokens texts ++ rest), .blockValue :: stack⟩
      (listEvents texts ++ events) left := by
    rw [listTokens, listEvents, List.append_assoc, List.append_assoc]
    exact (gives_items texts hgives).of_inside rfl (lt_two_more _)
  exact hlist.of_inside rfl (lt_two_more _)

/-- A rule gives the events of a mapping. -/
theorem gives_rule (rule : Rule)
    (hgives : Gives handles ⟨rest, .blockItem :: stack⟩ events left) :
    Gives handles ⟨ruleTokens rule ++ rest, .blockItem :: stack⟩ (ruleEvents rule ++ events)
      left := by
  have hend : Gives handles ⟨.blockEnd :: rest, .blockKey :: .blockItem :: stack⟩
      (.mappingEnd :: events) left :=
    hgives.of_inside rfl (Nat.lt_succ_self _)
  have hmembers := gives_entry (categoryField, rule.category.key)
    (gives_list patternsField rule.patterns hend)
  rw [ruleTokens, ruleStart, ruleEvents]
  simp only [List.cons_append, List.append_assoc, List.nil_append]
  exact hmembers.of_inside rfl (lt_two_more _)

/-- Rules give their events one after the other. -/
theorem gives_rules (rules : List Rule)
    (hgives : Gives handles ⟨rest, stack⟩ events left) :
    Gives handles ⟨rules.flatMap ruleTokens ++ .blockEnd :: rest, .blockItem :: stack⟩
      (rules.flatMap ruleEvents ++ .sequenceEnd :: events) left := by
  induction rules with
  | nil => exact hgives.of_inside rfl (Nat.lt_succ_self _)
  | cons rule rules ih =>
      rw [List.flatMap_cons, List.flatMap_cons, List.append_assoc, List.append_assoc]
      exact gives_rule rule ih

end Gives

/-- The rules as the last member of the settings. -/
theorem gives_rulesMember {handles : Event.Handles} {left : List Token} (rules : List Rule) :
    Gives handles ⟨rulesTokens rules ++ .blockEnd :: left, [.blockKey]⟩
      (rulesEvents rules ++ [.mappingEnd]) left := by
  have hend : Gives handles ⟨.blockEnd :: left, [.blockKey]⟩ [.mappingEnd] left :=
    gives_done.of_inside rfl (Nat.lt_succ_self _)
  by_cases hrules : rules = []
  · rw [rulesTokens, rulesEvents, if_pos hrules, if_pos hrules]
    exact hend
  · rw [rulesTokens, rulesEvents, if_neg hrules, if_neg hrules]
    simp only [List.cons_append, List.append_assoc, List.nil_append]
    have hsequence : Gives handles
        ⟨.value :: .blockSequenceStart ::
          (rules.flatMap ruleTokens ++ .blockEnd :: .blockEnd :: left), [.blockValue]⟩
        (.sequenceStart none none ::
          (rules.flatMap ruleEvents ++ [.sequenceEnd, .mappingEnd])) left :=
      (gives_rules rules hend).of_inside rfl (lt_two_more _)
    exact hsequence.of_inside rfl (lt_two_more _)

/-! ## The document -/

/-- Linking changes no events without aliases. -/
theorem link_widen (numbers : Document.Numbers) (events : List (Event Empty)) :
    Document.link numbers (events.map widen) = (events.map widen, true) := by
  induction events generalizing numbers with
  | nil => rfl
  | cons event events ih =>
      cases event with
      | «alias» anchor => exact nomatch anchor
      | _ => simp [Document.link, Document.numberAnchor, widen, ih]

/-- A document that starts with a mapping is walked over from within the mapping. -/
theorem first_blockMappingStart {tokens left : List Token} {events : List (Event Empty)}
    (hgives : Gives Event.standardHandles ⟨tokens, [.blockKey]⟩ events left) :
    Document.first (.blockMappingStart :: tokens) =
      ((.mappingStart none none :: events).map widen, some left) := by
  have hrun := hgives (4 * (tokens.length + 1) + 4) (by simp only; omega)
  have hfirst : Document.first (.blockMappingStart :: tokens) =
      Event.ofTokens Event.standardHandles (.blockMappingStart :: tokens) := rfl
  have hnode : Event.node Event.standardHandles true false ⟨.blockMappingStart :: tokens, []⟩ =
      some (.mappingStart none none, ⟨tokens, [.blockKey]⟩) := rfl
  simp only [hfirst, Event.ofTokens, hnode, List.length_cons, hrun, List.map_cons]
  rfl

/-- The tokens of settings give their events and nothing more. -/
theorem first_tokensOf (s : Settings) :
    Document.first (tokensOf s) = ((eventsOf s).map widen, some [.streamEnd]) := by
  by_cases hempty : entries s = [] ∧ s.rules = []
  · rw [tokensOf, eventsOf, if_pos hempty, if_pos hempty]
    rfl
  · rw [tokensOf, eventsOf, if_neg hempty, if_neg hempty]
    have hgives := gives_entries (entries s)
      (@gives_rulesMember Event.standardHandles [.streamEnd] s.rules)
    simpa using first_blockMappingStart hgives

/-- Plain characters are allowed in a document. -/
theorem isAllowed_of_isPlain {c : Char} (hc : IsPlain c) : isAllowed c := by
  rcases hc with rfl | hc
  · rfl
  · simp [isAllowed, hc]

theorem symbols?_yaml (s : Settings) :
    symbols? (yaml s) = some (symbolsFrom {} (yaml s).toList) := by
  have hplain := plain_yaml s
  have hallowed : (yaml s).toList.all isAllowed :=
    List.all_eq_true.mpr fun c hc => isAllowed_of_isPlain (hplain c hc)
  rw [symbols?, if_pos hallowed]
  cases htext : (yaml s).toList with
  | nil => rfl
  | cons c rest =>
      have hmark : c ≠ Yaml.byteOrderMark := by
        rintro rfl
        exact absurd (hplain _ (htext ▸ List.mem_cons_self)) (by decide)
      simp only [if_neg hmark]

/-- The text of settings is one document with their events. -/
theorem ofText_yaml (s : Settings) :
    Document.ofText (yaml s) = ⟨(eventsOf s).map widen, true⟩ := by
  simp only [Document.ofText, symbols?_yaml, ofSymbols_yaml, first_tokensOf, link_widen]
  rfl

end TimingReport.Settings
