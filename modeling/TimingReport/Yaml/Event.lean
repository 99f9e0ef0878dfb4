import TimingReport.Yaml.Tokens

/-!
# The events of a document

The nodes of a document in reading order: texts, aliases, and the starts and ends of
collections. Each event takes as few tokens as it needs, so a document that breaks off has
all events up to that place.
-/

namespace TimingReport.Yaml

/-- A step of the walk over a document. Anchors are of the type `α`. -/
inductive Event (α : Type) where
  | text (anchor : Option α) (tag : Option String) (value : String) (isPlain : Bool)
  | alias (anchor : α)
  | sequenceStart (anchor : Option α) (tag : Option String)
  | sequenceEnd
  | mappingStart (anchor : Option α) (tag : Option String)
  | mappingEnd
deriving DecidableEq

namespace Event

/-- What is expected next within an open collection. -/
inductive Expected where
  | blockItem
  /-- An item of a block sequence at the column of the mapping around it. -/
  | looseItem
  | blockKey
  | blockValue
  | flowItem (isFirst : Bool)
  | flowKey (isFirst : Bool)
  | flowValue
  /-- The value of a key that stands alone. -/
  | absentValue
  /-- The parts of a pair that stands as an item of a flow sequence. -/
  | pairKey
  | pairValue
  | pairEnd

/-- The handles with what they stand for, the first of each name counting. -/
abbrev Handles := List (String × String)

/-- The handles that are always there. -/
def standardHandles : Handles := [("!", "!"), ("!!", "tag:yaml.org,2002:")]

/-- The state between two events: the tokens ahead and what the open collections expect,
the innermost first. -/
structure State where
  tokens : List Token
  stack : List Expected := []

/-- An event and the state behind it. -/
abbrev Next := Option (Event String × State)

/-- The whole tag, if its handle is known. -/
def resolve (handles : Handles) (tag : TagText) : Option String :=
  if tag.handle.isEmpty then some tag.suffix
  else (handles.lookup tag.handle).map (· ++ tag.suffix)

/-- The anchor and the tag at the front, and what is left. Either of them may come first. -/
def properties (tokens : List Token) : Option String × Option TagText × List Token :=
  match tokens with
  | .anchor name :: .tag tag :: rest => (some name, some tag, rest)
  | .tag tag :: .anchor name :: rest => (some name, some tag, rest)
  | .anchor name :: rest => (some name, none, rest)
  | .tag tag :: rest => (none, some tag, rest)
  | rest => (none, none, rest)

/-- The tag that a text keeps: one exclamation mark only says that the text is plain. -/
def tagOfText (tag : Option String) : Option String := if tag = some "!" then none else tag

/-- The start of a node. In a block, collections without brackets may open. -/
def node (handles : Handles) (isBlock isLoose : Bool) (s : State) : Next := do
  if let .alias name :: rest := s.tokens then
    return (.alias name, { s with tokens := rest })
  let (anchor, tagText, tokens) := properties s.tokens
  let tag ← match tagText with
    | some tag => (resolve handles tag).map some
    | none => some none
  let start (event : Event String) (expected : Expected) (tokens : List Token) : Next :=
    some (event, ⟨tokens, expected :: s.stack⟩)
  let empty : Next :=
    if anchor.isSome || tag.isSome then some (.text anchor tag "" true, { s with tokens })
    else none
  match tokens with
  | [] => none
  | .blockEntry :: _ =>
      if isLoose then start (.sequenceStart anchor tag) .looseItem tokens else empty
  | .text value isPlain :: rest =>
      some (.text anchor (tagOfText tag) value isPlain, { s with tokens := rest })
  | .flowSequenceStart :: rest => start (.sequenceStart anchor tag) (.flowItem true) rest
  | .flowMappingStart :: rest => start (.mappingStart anchor tag) (.flowKey true) rest
  | .blockSequenceStart :: rest =>
      if isBlock then start (.sequenceStart anchor tag) .blockItem rest else empty
  | .blockMappingStart :: rest =>
      if isBlock then start (.mappingStart anchor tag) .blockKey rest else empty
  | _ => empty

/-- A node that is not written. -/
def absent (s : State) : Next := some (.text none none "" true, s)

/-- The node at the front unless one of the given tokens is there instead. -/
def nodeUnless (handles : Handles) (isBlock isLoose : Bool) (stops : List Token) (s : State) :
    Next :=
  match s.tokens with
  | [] => none
  | token :: _ => if stops.contains token then absent s else node handles isBlock isLoose s

/-- The items of a flow sequence from the front, where no comma is expected any more. -/
def flowItem (handles : Handles) (tokens : List Token) (stack : List Expected) : Next :=
  match tokens with
  | .flowSequenceEnd :: rest => some (.sequenceEnd, ⟨rest, stack⟩)
  | .key :: rest => some (.mappingStart none none, ⟨rest, .pairKey :: stack⟩)
  | tokens => node handles false false ⟨tokens, .flowItem false :: stack⟩

/-- The members of a flow mapping from the front, where no comma is expected any more. -/
def flowKey (handles : Handles) (tokens : List Token) (stack : List Expected) : Next :=
  match tokens with
  | .flowMappingEnd :: rest => some (.mappingEnd, ⟨rest, stack⟩)
  | .key :: rest =>
      nodeUnless handles false false [.value, .flowEntry, .flowMappingEnd]
        ⟨rest, .flowValue :: stack⟩
  | tokens => node handles false false ⟨tokens, .absentValue :: stack⟩

/-- The event that the innermost open collection makes of the tokens ahead. -/
def inside (handles : Handles) (expected : Expected) (tokens : List Token)
    (stack : List Expected) : Next :=
  match expected, tokens with
  | .blockItem, .blockEntry :: rest =>
      nodeUnless handles true false [.blockEntry, .blockEnd] ⟨rest, .blockItem :: stack⟩
  | .blockItem, .blockEnd :: rest => some (.sequenceEnd, ⟨rest, stack⟩)
  | .looseItem, .blockEntry :: rest =>
      nodeUnless handles true false [.blockEntry, .key, .value, .blockEnd]
        ⟨rest, .looseItem :: stack⟩
  | .looseItem, _ :: _ => some (.sequenceEnd, ⟨tokens, stack⟩)
  | .blockKey, .key :: rest =>
      nodeUnless handles true true [.key, .value, .blockEnd] ⟨rest, .blockValue :: stack⟩
  | .blockKey, .blockEnd :: rest => some (.mappingEnd, ⟨rest, stack⟩)
  | .blockValue, .value :: rest =>
      nodeUnless handles true true [.key, .value, .blockEnd] ⟨rest, .blockKey :: stack⟩
  | .blockValue, _ :: _ => absent ⟨tokens, .blockKey :: stack⟩
  | .flowItem true, _ => flowItem handles tokens stack
  | .flowItem false, .flowEntry :: rest => flowItem handles rest stack
  | .flowItem false, .flowSequenceEnd :: _ => flowItem handles tokens stack
  | .flowKey true, _ => flowKey handles tokens stack
  | .flowKey false, .flowEntry :: rest => flowKey handles rest stack
  | .flowKey false, .flowMappingEnd :: _ => flowKey handles tokens stack
  | .flowValue, .value :: rest =>
      nodeUnless handles false false [.flowEntry, .flowMappingEnd] ⟨rest, .flowKey false :: stack⟩
  | .flowValue, _ :: _ => absent ⟨tokens, .flowKey false :: stack⟩
  | .absentValue, _ :: _ => absent ⟨tokens, .flowKey false :: stack⟩
  | .pairKey, token :: rest =>
      -- A pair without a key loses the token that ends the key.
      if [.value, .flowEntry, .flowSequenceEnd].contains token then
        absent ⟨rest, .pairValue :: stack⟩
      else node handles false false ⟨tokens, .pairValue :: stack⟩
  | .pairValue, .value :: rest =>
      nodeUnless handles false false [.flowEntry, .flowSequenceEnd] ⟨rest, .pairEnd :: stack⟩
  | .pairValue, _ :: _ => absent ⟨tokens, .pairEnd :: stack⟩
  | .pairEnd, _ :: _ => some (.mappingEnd, ⟨tokens, .flowItem false :: stack⟩)
  | _, _ => none

/-- The events of a node: those that were found, and the tokens behind it unless it breaks
off. -/
def run (handles : Handles) : Nat → State → List (Event String) × Option (List Token)
  | 0, _ => ([], none)
  | fuel + 1, s =>
      match s.stack with
      | [] => ([], some s.tokens)
      | expected :: stack =>
          match inside handles expected s.tokens stack with
          | none => ([], none)
          | some (event, next) =>
              let (events, rest) := run handles fuel next
              (event :: events, rest)

/-- The events of a node at the front. A token makes at most four events. -/
def ofTokens (handles : Handles) (tokens : List Token) :
    List (Event String) × Option (List Token) :=
  match node handles true false ⟨tokens, []⟩ with
  | none => ([], none)
  | some (event, next) =>
      let (events, rest) := run handles (4 * tokens.length + 4) next
      (event :: events, rest)

end Event

end TimingReport.Yaml
