import TimingReport.Yaml.Event

/-!
# Documents of YAML

A text is read as one document. Whatever can be read of it is kept, together with whether
the text holds this document and nothing else.
-/

namespace TimingReport.Yaml

/-- The events of a document, whose anchors are numbers. -/
structure Document where
  events : List (Event Nat)
  /-- The whole text was read and holds no other document. -/
  isWhole : Bool

namespace Document

/-! ## Anchors -/

/-- Names of anchors with their numbers. -/
abbrev Numbers := List (String × Nat)

/-- The numbers with one for a new anchor: as many as there are names so far. -/
def number (numbers : Numbers) (name : String) : Numbers :=
  (name, numbers.length) :: numbers.filter (·.1 ≠ name)

/-- The number for an anchor that a node may have. -/
def numberAnchor (numbers : Numbers) : Option String → Numbers × Option Nat
  | none => (numbers, none)
  | some name => (number numbers name, some numbers.length)

/-- The events with numbers for anchors, up to an alias of an anchor that is not there, and
whether they are all. -/
def link (numbers : Numbers) : List (Event String) → List (Event Nat) × Bool
  | [] => ([], true)
  | event :: rest =>
      let linked : Option (Numbers × Event Nat) := match event with
        | .text anchor tag value isPlain =>
            let (numbers, anchor) := numberAnchor numbers anchor
            some (numbers, .text anchor tag value isPlain)
        | .sequenceStart anchor tag =>
            let (numbers, anchor) := numberAnchor numbers anchor
            some (numbers, .sequenceStart anchor tag)
        | .mappingStart anchor tag =>
            let (numbers, anchor) := numberAnchor numbers anchor
            some (numbers, .mappingStart anchor tag)
        | .alias name => (numbers.lookup name).map fun n => (numbers, .alias n)
        | .sequenceEnd => some (numbers, .sequenceEnd)
        | .mappingEnd => some (numbers, .mappingEnd)
      match linked with
      | none => ([], false)
      | some (numbers, event) =>
          let (events, isAll) := link numbers rest
          (event :: events, isAll)

/-- The anchor that a node has. -/
def anchorOf {α : Type} : Event α → Option α
  | .text anchor _ _ _ => anchor
  | .sequenceStart anchor _ => anchor
  | .mappingStart anchor _ => anchor
  | _ => none

/-- The events from the last node with an anchor on. -/
def target (anchor : Nat) : List (Event Nat) → List (Event Nat)
  | [] => []
  | event :: rest =>
      match target anchor rest with
      | [] => if anchorOf event = some anchor then event :: rest else []
      | found => found

/-! ## Reading -/

/-- The directives at the front, if they fit together, and what is left. -/
def directives (version : Bool) (handles : Event.Handles) :
    List Token → Option (Event.Handles × List Token)
  | .version major minor :: rest =>
      if version || major ≠ 1 || (minor ≠ 1 && minor ≠ 2) then none
      else directives true handles rest
  | .handle name meaning :: rest =>
      if (handles.lookup name).isSome then none
      else directives version ((name, meaning) :: handles) rest
  | tokens => some (handles, tokens)

/-- The tokens are directives or start a document. -/
def isExplicit : List Token → Bool
  | .version _ _ :: _ => true
  | .handle _ _ :: _ => true
  | .documentStart :: _ => true
  | _ => false

/-- The events of the content of a document that was started explicitly, which may be empty. -/
def content (handles : Event.Handles) (tokens : List Token) :
    List (Event String) × Option (List Token) :=
  match tokens with
  | [] => ([], none)
  | token :: _ =>
      if isExplicit tokens || token = .documentEnd || token = .streamEnd then
        ([.text none none "" true], some tokens)
      else Event.ofTokens handles tokens

/-- The events of the first document, and what is left behind it unless it breaks off. -/
def first (tokens : List Token) : List (Event String) × Option (List Token) :=
  if isExplicit tokens then
    match directives false [] tokens with
    | some (handles, .documentStart :: rest) => content (handles ++ Event.standardHandles) rest
    | _ => ([], none)
  else if tokens = [.streamEnd] then ([], some tokens)
  else Event.ofTokens Event.standardHandles tokens

/-- Nothing is left but marks that end documents. -/
def isOver (tokens : List Token) : Bool :=
  tokens.dropWhile (· == .documentEnd) == [.streamEnd]

/-- The document of a text. -/
def ofText (text : String) : Document :=
  match symbols? text with
  | none => ⟨[], false⟩
  | some symbols =>
      let tokens := Tokens.ofSymbols symbols
      let (events, rest) := first tokens.given
      let (linked, isAll) := link [] events
      ⟨linked, isAll && tokens.isWhole && rest.any isOver⟩

/-- The text holds no document at all. -/
def isAbsent (d : Document) : Bool := d.isWhole && d.events.isEmpty

end Document

end TimingReport.Yaml
