import TimingReport.Settings
import TimingReport.Settings.Misfit
import TimingReport.Yaml.Document
import TimingReport.Yaml.Scalar

/-!
# Settings in YAML

A document is a mapping of the settings, and each rule is a mapping of its own. Texts may be
plain, whatever else they could stand for, and an absent value stands for an empty
collection. A document that breaks off is refused for what is wrong before it does.
-/

namespace TimingReport.Settings

open TimingReport.Yaml (Event Document)

namespace Yaml

/-- A reader of a value at the front of the events, in a document whose aliases it follows. -/
abbrev Reader (α : Type) :=
  List (Event Nat) → List (Event Nat) → Except Misfit (α × List (Event Nat))

/-- The reader of the value that an alias stands for, or of the value that is there. -/
def follow {α : Type} (read : Reader α) : Reader α := fun document events =>
  match events with
  | .alias anchor :: rest =>
      (read document (Document.target anchor document)).map fun (a, _) => (a, rest)
  | events => read document events

/-- The fault of an event at which something else is wanted. -/
def misfit (wanted : String) : List (Event Nat) → Misfit
  | .text _ tag value isPlain :: _ =>
      match Yaml.Scalar.found? tag value isPlain with
      | some found => .wrongType found wanted
      | none => .malformed
  | .sequenceStart _ _ :: _ => .wrongType .sequence wanted
  | .mappingStart _ _ :: _ => .wrongType .mapping wanted
  | _ => .malformed

/-- A text. -/
def text (wanted : String) : Reader String :=
  follow fun _ events =>
    match events with
    | .text _ _ value _ :: rest => .ok (value, rest)
    | events => .error (misfit wanted events)

/-- A value that may stand for nothing. -/
def optional {α : Type} (read : Reader α) : Reader (Option α) :=
  follow fun document events =>
    let present := (read document events).map fun (a, rest) => (some a, rest)
    match events with
    | .text _ (some tag) value true :: rest =>
        if tag = Yaml.Scalar.coreTag "null" then
          if Yaml.Scalar.isNull value then .ok (none, rest) else .error .malformed
        else present
    | .text _ none value true :: rest =>
        if value.isEmpty || Yaml.Scalar.isNull value then .ok (none, rest) else present
    | _ => present

/-- A value that says nothing more, which is all that a tagged word may carry. -/
def nothing : Reader Unit :=
  follow fun _ events =>
    match events with
    | .text _ _ value true :: rest =>
        if value.isEmpty || Yaml.Scalar.isNull value then .ok ((), rest) else .error .malformed
    | .sequenceStart _ _ :: _ => .error (misfit "unit" events)
    | .mappingStart _ _ :: _ => .error (misfit "unit" events)
    | _ => .error .malformed

/-- What a collection without a tag should be where a word must be chosen. -/
def wantedTag : String := "a YAML tag starting with '!'"

/-- A chosen word, written as a text or as a tag. -/
def chosen {α : Type} (choice : Choice α) : Reader α :=
  follow fun document events =>
    let tagged (tag : Option String) (untagged : Except Misfit (α × List (Event Nat))) :
        Except Misfit (α × List (Event Nat)) :=
      match tag.bind Yaml.Scalar.localName? with
      | some word => do
          let a ← choice.ofWord word
          let (_, rest) ← nothing document events
          return (a, rest)
      | none => untagged
    match events with
    | .text _ tag value _ :: rest =>
        tagged tag ((choice.ofWord value).map fun a => (a, rest))
    | .sequenceStart _ tag :: _ => tagged tag (.error (misfit wantedTag events))
    | .mappingStart _ tag :: _ => tagged tag (.error (misfit wantedTag events))
    | _ => .error .malformed

/-- The items of a sequence up to its end, at most `fuel` many. -/
def items {α : Type} (read : Reader α) : Nat → Reader (List α)
  | 0, _, _ => .error .malformed
  | fuel + 1, document, events =>
      match events with
      | .sequenceEnd :: rest => .ok ([], rest)
      | events => do
          let (a, events) ← read document events
          let (others, rest) ← items read fuel document events
          return (a :: others, rest)

/-- A sequence, or the empty text in its place. -/
def list {α : Type} (read : Reader α) : Reader (List α) :=
  follow fun document events =>
    match events with
    | .sequenceStart _ _ :: rest => items read (rest.length + 1) document rest
    | .text _ _ "" true :: rest => .ok ([], rest)
    | events => .error (misfit wantedList events)

/-- What is left behind a value, inside of which so many collections are open. -/
def skip : Nat → List (Event Nat) → Except Misfit (List (Event Nat))
  | _, [] => .error .malformed
  | depth, event :: rest =>
      let after (depth : Nat) : Except Misfit (List (Event Nat)) :=
        if depth = 0 then .ok rest else skip depth rest
      match event with
      | .text _ _ _ _ => after depth
      | .alias _ => after depth
      | .sequenceStart _ _ => after (depth + 1)
      | .mappingStart _ _ => after (depth + 1)
      | .sequenceEnd => after (depth - 1)
      | .mappingEnd => after (depth - 1)

/-- A field of a record `σ`: its name, and a reader that puts its value into the record. -/
structure Field (σ : Type) where
  name : String
  read : σ → Reader σ

/-- The members of a mapping up to its end, at most `fuel` many. A known key must not come
twice; an unknown one is passed over or refused. -/
def members {σ : Type} (fields : List (Field σ)) (isOpen : Bool) :
    Nat → List String → σ → Reader σ
  | 0, _, _, _, _ => .error .malformed
  | fuel + 1, seen, r, document, events =>
      match events with
      | .mappingEnd :: rest => .ok (r, rest)
      | events => do
          let (key, events) ← text "field identifier" document events
          match fields.find? (·.name == key) with
          | some field =>
              if seen.contains key then .error (.duplicateField key)
              else
                let (r, events) ← field.read r document events
                members fields isOpen fuel (key :: seen) r document events
          | none =>
              if isOpen then
                members fields isOpen fuel seen r document (← skip 0 events)
              else .error (.unknownField key)

/-- A mapping with the given fields, or the empty text in its place. -/
def record {σ : Type} (wanted : String) (fields : List (Field σ)) (isOpen : Bool) (empty : σ) :
    Reader σ :=
  follow fun document events =>
    match events with
    | .mappingStart _ _ :: rest =>
        members fields isOpen (rest.length + 1) [] empty document rest
    | .text _ _ "" true :: rest => .ok (empty, rest)
    | events => .error (misfit wanted events)

/-- A field with a reader of its value and what the value sets. -/
def Field.of {σ α : Type} (name : String) (read : Reader α) (set : σ → α → σ) : Field σ where
  name := name
  read r document events := (read document events).map fun (a, rest) => (set r a, rest)

/-- The parts of a rule. -/
def ruleFields : List (Field RuleDraft) := [
  .of categoryField (chosen categoryChoice) fun r a => { r with category := some a },
  .of patternsField (list (text wantedText)) fun r a => { r with patterns := a }]

/-- A rule. -/
def rule : Reader Rule := fun document events => do
  let (draft, rest) ← record wantedRule ruleFields true {} document events
  return (← draft.finish, rest)

/-- The settings of a document. -/
def settingsFields : List (Field Settings) := [
  .of "input" (optional (text wantedPath)) fun s a => { s with input := a },
  .of "output" (optional (text wantedPath)) fun s a => { s with output := a },
  .of "format" (optional (chosen formatChoice)) fun s a => { s with format := a },
  .of "title" (optional (text wantedText)) fun s a => { s with title := a },
  .of "rules" (list rule) fun s a => { s with rules := a }]

/-- The settings at the front of a document. -/
def settings : Reader Settings := record wantedSettings settingsFields false {}

end Yaml

/-- The settings that a document of YAML holds. -/
def decodeYaml (source : String) : Except Misfit Settings :=
  let document := Document.ofText source
  if document.isAbsent then .ok {}
  else do
    let (s, _) ← Yaml.settings document.events document.events
    if document.isWhole then return s else .error .malformed

end TimingReport.Settings
