import TimingReport.Yaml.Block
import TimingReport.Yaml.Text
import TimingReport.Yaml.Token

/-!
# The tokens of a text

Indentation opens and closes collections, and a text becomes a key once a colon follows it
on its line. So tokens are inserted behind the front: where a key may have started is kept
in mind until it is known whether one did.
-/

namespace TimingReport.Yaml

/-- Where a key may have started. -/
structure KeyStart where
  /-- The number of tokens before it. -/
  position : Nat
  place : Place
  /-- Nothing but a key can start there. -/
  isRequired : Bool

/-- A key ends on its line and within so many characters. -/
def maxKeyLength : Nat := 1024

/-- No key that started there can be completed at a place. -/
def KeyStart.isStale (key : KeyStart) (p : Place) : Bool :=
  key.place.line < p.line || key.place.index + maxKeyLength < p.index

/-- The state between two tokens. -/
structure Scanner where
  rest : List Symbol
  /-- The tokens so far in reverse. -/
  tokens : List Token := []
  /-- The columns of the open block collections, the innermost first. -/
  indents : List Nat := []
  /-- The start of a key in the innermost collection. -/
  key : Option KeyStart := none
  /-- The starts of keys around the open flow collections, the innermost first. -/
  outer : List (Option KeyStart) := []
  /-- A key may start at the front. -/
  keyAllowed : Bool := true

namespace Scanner

/-- The front lies within brackets or braces. -/
def inFlow (s : Scanner) : Bool := !s.outer.isEmpty

def place (s : Scanner) : Place := placeOf s.rest

/-- The scanner with one more token. -/
def emit (token : Token) (s : Scanner) : Scanner := { s with tokens := token :: s.tokens }

/-- The scanner with a token behind the first `position` ones. -/
def insert (position : Nat) (token : Token) (s : Scanner) : Scanner :=
  { s with tokens := s.tokens.insertIdx (s.tokens.length - position) token }

/-! ## Starts of keys -/

/-- The start of a key, unless it is stale. What must be a key must not become stale. -/
def refresh (p : Place) : Option KeyStart → Option (Option KeyStart)
  | some key => if key.isStale p then if key.isRequired then none else some none else some key
  | none => some none

/-- The scanner without stale starts of keys. -/
def dropStale (s : Scanner) : Option Scanner := do
  return { s with key := ← refresh s.place s.key, outer := ← s.outer.mapM (refresh s.place) }

/-- The scanner without the start of a key, which must not be a required one. -/
def dropKey (s : Scanner) : Option Scanner :=
  match s.key with
  | some key => if key.isRequired then none else some { s with key := none }
  | none => some s

/-- The scanner with the front as the start of a key, if one may start there. -/
def saveKey (s : Scanner) : Option Scanner :=
  if s.keyAllowed then do
    let isRequired := !s.inFlow && s.indents.head? == some s.place.column
    let s ← s.dropKey
    return { s with key := some ⟨s.tokens.length, s.place, isRequired⟩ }
  else some s

/-! ## Indentation -/

/-- Opens a block collection if the column lies deeper than those that are open. -/
def roll (column position : Nat) (token : Token) (s : Scanner) : Scanner :=
  if s.inFlow || s.indents.head?.any (column ≤ ·) then s
  else { s.insert position token with indents := column :: s.indents }

/-- The open collections and the tokens after those deeper than a column were closed. -/
def closeDeeper (column : Nat) (tokens : List Token) : List Nat → List Nat × List Token
  | [] => ([], tokens)
  | indent :: outer =>
      if column < indent then closeDeeper column (.blockEnd :: tokens) outer
      else (indent :: outer, tokens)

/-- Closes the block collections that lie deeper than the front. -/
def unroll (s : Scanner) : Scanner :=
  if s.inFlow then s
  else
    let (indents, tokens) := closeDeeper s.place.column s.tokens s.indents
    { s with indents, tokens }

/-- Closes all block collections. -/
def unrollAll (s : Scanner) : Scanner :=
  if s.inFlow then s
  else { s with indents := [], tokens := s.indents.map (fun _ => .blockEnd) ++ s.tokens }

/-! ## Steps -/

/-- Skips blanks, comments and line breaks. Outside of brackets a key may start on a new
line, and a tab must not stand where a key may start. -/
def skipLayout (inFlow : Bool) : Bool → Bool → List Symbol → Bool × List Symbol
  | keyAllowed, _, [] => (keyAllowed, [])
  | keyAllowed, inComment, s :: rest =>
      if isBreak s.char then skipLayout inFlow (keyAllowed || !inFlow) false rest
      else if s.char = endMark then (keyAllowed, s :: rest)
      else if inComment then skipLayout inFlow keyAllowed true rest
      else if s.char = byteOrderMark && s.place.column = 0 then
        skipLayout inFlow keyAllowed false rest
      else if s.char = ' ' || (s.char = '\t' && (inFlow || !keyAllowed)) then
        skipLayout inFlow keyAllowed false rest
      else if s.char = '#' then skipLayout inFlow keyAllowed true rest
      else (keyAllowed, s :: rest)

/-- Skips what lies before the next token. -/
def skip (s : Scanner) : Scanner :=
  let (keyAllowed, rest) := skipLayout s.inFlow s.keyAllowed false s.rest
  { s with keyAllowed, rest }

/-- The scanner behind so many symbols that are a token. -/
def advance (count : Nat) (token : Token) (s : Scanner) : Scanner :=
  { s.emit token with rest := s.rest.drop count }

/-- The end of the text. -/
def finish (s : Scanner) : Option Scanner := do
  let s ← s.unrollAll.dropKey
  return { s.emit .streamEnd with rest := [], keyAllowed := false }

/-- A directive. -/
def readDirective (s : Scanner) : Option Scanner := do
  let s ← s.unrollAll.dropKey
  let (token, rest) ← directive (s.rest.drop 1)
  return { s.emit token with rest, keyAllowed := false }

/-- A mark between documents. -/
def readDivider (token : Token) (s : Scanner) : Option Scanner := do
  let s ← s.unrollAll.dropKey
  return { s.advance 3 token with keyAllowed := false }

/-- An opening bracket or brace. -/
def openFlow (token : Token) (s : Scanner) : Option Scanner := do
  let s ← s.saveKey
  return { s.advance 1 token with key := none, outer := s.key :: s.outer, keyAllowed := true }

/-- A closing bracket or brace. -/
def closeFlow (token : Token) (s : Scanner) : Option Scanner := do
  let s ← s.dropKey
  let s := match s.outer with
    | key :: outer => { s with key, outer }
    | [] => s
  return { s.advance 1 token with keyAllowed := false }

/-- A comma between the items of a flow collection. -/
def readFlowEntry (s : Scanner) : Option Scanner := do
  let s ← s.dropKey
  return { s.advance 1 .flowEntry with keyAllowed := true }

/-- Opens a block collection at the front, where a key must be allowed. -/
def openBlock (token : Token) (s : Scanner) : Option Scanner :=
  if s.inFlow then some s
  else if s.keyAllowed then some (s.roll s.place.column s.tokens.length token)
  else none

/-- A dash before an item. -/
def readBlockEntry (s : Scanner) : Option Scanner := do
  let s ← (← s.openBlock .blockSequenceStart).dropKey
  return { s.advance 1 .blockEntry with keyAllowed := true }

/-- A question mark before a key. -/
def readKey (s : Scanner) : Option Scanner := do
  let s ← (← s.openBlock .blockMappingStart).dropKey
  return { s.advance 1 .key with keyAllowed := !s.inFlow }

/-- A colon, which makes what started a key on its line the key. -/
def readValue (s : Scanner) : Option Scanner :=
  match s.key with
  | some key =>
      let s := (s.insert key.position .key).roll key.place.column key.position .blockMappingStart
      some { s.advance 1 .value with key := none, keyAllowed := false }
  | none => do
      let s ← s.openBlock .blockMappingStart
      return { s.advance 1 .value with keyAllowed := !s.inFlow }

/-- A part of a value, which may start a key. -/
def readPart (read : Scan Token) (s : Scanner) : Option Scanner := do
  let s ← s.saveKey
  let (token, rest) ← read s.rest
  return { s.emit token with rest, keyAllowed := false }

/-- A plain text. A line break behind it lets a key start. -/
def readPlain (s : Scanner) : Option Scanner := do
  let s ← s.saveKey
  let indent := match s.indents.head? with
    | some n => n + 1
    | none => 0
  let ((text, isBroken), rest) ← plainText s.inFlow indent [] .nothing s.rest
  return { s.emit (.text text true) with rest, keyAllowed := isBroken }

/-- A block text. -/
def readBlock (isFolded : Bool) (s : Scanner) : Option Scanner := do
  let s ← s.dropKey
  let (text, rest) ← Block.text isFolded s.indents.head? (s.rest.drop 1)
  return { s.emit (.text text false) with rest, keyAllowed := true }

/-- The scanner after the token at the front. -/
def readToken (s : Scanner) : Option Scanner :=
  let c := front s.rest
  let behind := s.rest.drop 1
  let isAlone := isGap (front behind)
  if c = endMark then s.finish
  else if c = '%' && s.place.column = 0 then s.readDirective
  else if isMarker '-' s.rest then s.readDivider .documentStart
  else if isMarker '.' s.rest then s.readDivider .documentEnd
  else if c = '[' then s.openFlow .flowSequenceStart
  else if c = '\x7b' then s.openFlow .flowMappingStart
  else if c = ']' then s.closeFlow .flowSequenceEnd
  else if c = '\x7d' then s.closeFlow .flowMappingEnd
  else if c = ',' then s.readFlowEntry
  else if c = '-' && isAlone then s.readBlockEntry
  else if c = '?' && (s.inFlow || isAlone) then s.readKey
  else if c = ':' && (s.inFlow || isAlone) then s.readValue
  else if c = '*' then
    s.readPart fun _ => (anchorName behind).map fun (name, rest) => (.alias name, rest)
  else if c = '&' then
    s.readPart fun _ => (anchorName behind).map fun (name, rest) => (.anchor name, rest)
  else if c = '!' then
    s.readPart fun _ => (tagText s.inFlow behind).map fun (tag, rest) => (.tag tag, rest)
  else if c = '|' && !s.inFlow then s.readBlock false
  else if c = '>' && !s.inFlow then s.readBlock true
  else if c = '\'' || c = '"' then
    s.readPart fun rest => (quoted rest).map fun (text, rest) => (.text text false, rest)
  else if startsPlain s.inFlow s.rest then s.readPlain
  else none

/-- The scanner after the next token. -/
def step (s : Scanner) : Option Scanner := do
  let s ← s.skip.dropStale
  let s ← s.unroll.readToken
  s.dropStale

end Scanner

/-! ## All tokens -/

/-- The tokens of a text, and whether they are all of them. -/
structure Tokens where
  given : List Token
  isWhole : Bool

/-- The tokens so far that no later token can change: those before the start of a key. -/
def Scanner.settled (s : Scanner) : List Token :=
  let starts := (s.key :: s.outer).filterMap fun key => key.map KeyStart.position
  s.tokens.reverse.take (starts.foldl min s.tokens.length)

/-- The tokens from a state on. Each takes a symbol, so `fuel` many symbols suffice. -/
def Scanner.run : Nat → Scanner → Tokens
  | 0, s => ⟨s.settled, false⟩
  | fuel + 1, s =>
      match s.step with
      | none => ⟨s.settled, false⟩
      | some next => if next.rest.isEmpty then ⟨next.tokens.reverse, true⟩ else next.run fuel

/-- The tokens of symbols. -/
def Tokens.ofSymbols (symbols : List Symbol) : Tokens :=
  Scanner.run symbols.length { rest := symbols }

end TimingReport.Yaml
