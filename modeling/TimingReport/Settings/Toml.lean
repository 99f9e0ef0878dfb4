import TimingReport.Settings
import TimingReport.Settings.Misfit
import TimingReport.Toml.Document

/-!
# Settings in TOML

A document's table holds the settings, and each rule is a table or an array of its fields.
A word that must be chosen may also be the only key of a table, over nothing.
-/

namespace TimingReport.Settings

open TimingReport.Toml (Node Entries)

/-- What a value is when something else is wanted. -/
def foundNode : Node → Found
  | .text value => .text value
  | .integer value => .integer value
  | .real value => .real value
  | .boolean value => .boolean value
  | .moment => .mapping
  | .array _ => .sequence
  | .table _ _ => .mapping
  | .tables _ => .sequence

/-- A text. -/
def textOfNode (wanted : String) : Node → Except Misfit String
  | .text value => .ok value
  | node => .error (.wrongType (foundNode node) wanted)

/-- The items of a list; those of headers in double brackets are tables. -/
def itemsOfNode : Node → Except Misfit (List Node)
  | .array items => .ok items
  | .tables elements => .ok (elements.map (.table .header))
  | node => .error (.wrongType (foundNode node) wantedList)

/-- The value holds nothing. -/
def isEmptyNode : Node → Bool
  | .array items => items.isEmpty
  | .table _ entries => entries.isEmpty
  | .tables elements => elements.isEmpty
  | _ => false

/-- A chosen word. -/
def choiceOfNode {α : Type} (choice : Choice α) : Node → Except Misfit α
  | .text word => choice.ofWord word
  | .table _ [(word, payload)] => do
      let a ← choice.ofWord word
      if isEmptyNode payload then return a else .error .malformed
  | _ => .error .malformed

/-- Patterns. -/
def patternsOfNode (node : Node) : Except Misfit (List String) := do
  (← itemsOfNode node).mapM (textOfNode wantedText)

/-- The rule with one more of its fields; other keys are passed over. -/
def RuleDraft.withEntry (draft : RuleDraft) (entry : String × Node) : Except Misfit RuleDraft :=
  if entry.1 = categoryField then
    (choiceOfNode categoryChoice entry.2).map fun a => { draft with category := some a }
  else if entry.1 = patternsField then
    (patternsOfNode entry.2).map fun a => { draft with patterns := a }
  else .ok draft

/-- A rule. -/
def ruleOfNode : Node → Except Misfit Rule
  | .table _ entries => do
      (← entries.foldlM RuleDraft.withEntry {}).finish
  | .moment => .error (.missingField categoryField)
  | .array [] => .error .malformed
  | .array [category] => do return ⟨← choiceOfNode categoryChoice category, []⟩
  | .array (category :: patterns :: _) => do
      return ⟨← choiceOfNode categoryChoice category, ← patternsOfNode patterns⟩
  | node => .error (.wrongType (foundNode node) wantedRule)

/-- The settings with one more entry. -/
def withEntry (s : Settings) (entry : String × Node) : Except Misfit Settings :=
  let (name, node) := entry
  if name = "input" then (textOfNode wantedPath node).map fun a => s.apply (.input a)
  else if name = "output" then (textOfNode wantedPath node).map fun a => s.apply (.output a)
  else if name = "format" then (choiceOfNode formatChoice node).map fun a => s.apply (.format a)
  else if name = "title" then (textOfNode wantedText node).map fun a => s.apply (.title a)
  else if name = "rules" then do
    return { s with rules := ← (← itemsOfNode node).mapM ruleOfNode }
  else .error (.unknownField name)

/-- The settings that a document of TOML holds. -/
def decodeToml (text : String) : Except Misfit Settings :=
  match Toml.document text with
  | some entries => entries.foldlM withEntry {}
  | none => .error .malformed

end TimingReport.Settings
