import TimingReport.Yaml.Symbol

/-!
# Block texts of YAML

A block text has its own indented lines. They are kept as they are, or folded, so that a
line feed between two lines that do not start with a blank becomes a space.
-/

namespace TimingReport.Yaml.Block

/-- What becomes of the line breaks at the end. -/
inductive Chomping where
  | strip
  /-- The line break behind the last line is kept. -/
  | clip
  | keep

/-- How a block text is to be read. -/
structure Header where
  chomping : Chomping := .clip
  /-- How much deeper than its surroundings the text is indented, if that is said. -/
  increment : Option Nat := none

/-- The chomping that a character asks for. -/
def chomping? (c : Char) : Option Chomping :=
  if c = '-' then some .strip else if c = '+' then some .keep else none

/-- The increment that a character asks for. -/
def increment? (c : Char) : Option Nat := if c.isDigit then some (c.toNat - '0'.toNat) else none

/-- The indicators at the front, and what is left. Either of them may come first. -/
def indicators (s : List Symbol) : Header × List Symbol :=
  let c := front s
  let d := front (s.drop 1)
  match chomping? c, increment? c with
  | some chomping, _ =>
      match increment? d with
      | some n => ({ chomping, increment := some n }, s.drop 2)
      | none => ({ chomping }, s.drop 1)
  | none, some n =>
      match chomping? d with
      | some chomping => ({ chomping, increment := some n }, s.drop 2)
      | none => ({ increment := some n }, s.drop 1)
  | none, none => ({}, s)

/-- The header at the front, behind the character that starts the text. -/
def header (s : List Symbol) : Option (Header × List Symbol) :=
  let (found, rest) := indicators s
  if found.increment = some 0 then none else (endOfLine rest).map fun rest => (found, rest)

/-- The empty lines at the front: the column of the deepest blank or of the first other
character, and the line breaks. A tab must not stand where the first line is indented. -/
def emptyLines (deepest : Nat) (breaks : List Char) :
    List Symbol → Option (Nat × List Char × List Symbol)
  | [] => none
  | s :: rest =>
      let deepest := max deepest s.place.column
      if s.char = ' ' then emptyLines deepest breaks rest
      else if s.char = '\t' then none
      else if isBreak s.char then emptyLines deepest (breaks ++ [s.char]) rest
      else some (deepest, breaks, s :: rest)

/-- The lines that were read so far. -/
structure Lines where
  /-- Their characters in reverse. -/
  read : List Char := []
  /-- The line break behind the last line. -/
  last : Option Char := none
  /-- The line breaks of the empty lines since. -/
  empty : List Char := []
  /-- The last line starts with a blank. -/
  isIndented : Bool := false

/-- The lines with the gap before the next line, which starts with a blank or not. -/
def Lines.join (isFolded isIndented : Bool) (lines : Lines) : Lines :=
  let gap :=
    if isFolded && lines.last = some '\n' && !lines.isIndented && !isIndented then
      if lines.empty.isEmpty then [' '] else lines.empty
    else lines.last.toList ++ lines.empty
  { read := gap.reverse ++ lines.read, isIndented }

/-- The text of all lines. -/
def Lines.finish (chomping : Chomping) (lines : Lines) : String :=
  let tail := match chomping with
    | .strip => []
    | .clip => lines.last.toList
    | .keep => lines.last.toList ++ lines.empty
  String.ofList (lines.read.reverse ++ tail)

/-- The lines at the front, which are indented by `indent`, within a line or not. -/
def readLines (isFolded : Bool) (indent : Nat) : Bool → Lines → Scan Lines
  | _, _, [] => none
  | true, lines, s :: rest =>
      if s.char = endMark then some (lines, s :: rest)
      else if isBreak s.char then
        readLines isFolded indent false { lines with last := some s.char } rest
      else readLines isFolded indent true { lines with read := s.char :: lines.read } rest
  | false, lines, s :: rest =>
      let c := s.char
      let column := s.place.column
      if column < indent && c = ' ' then readLines isFolded indent false lines rest
      else if column < indent && c = '\t' then none
      else if isBreak c then
        readLines isFolded indent false { lines with empty := lines.empty ++ [c] } rest
      else if column = indent && c ≠ endMark then
        let lines := lines.join isFolded (isBlank c)
        readLines isFolded indent true { lines with read := c :: lines.read } rest
      else some (lines, s :: rest)

/-- A block text behind the character that starts it. Its surroundings are indented by
`outer`, if they are at all. -/
def text (isFolded : Bool) (outer : Option Nat) (s : List Symbol) :
    Option (String × List Symbol) := do
  let (header, s) ← header s
  let (indent, empty, s) ← match header.increment with
    | some n => some (outer.getD 0 + n, [], s)
    | none => do
        let (deepest, breaks, s) ← emptyLines 0 [] s
        let least := match outer with
          | some n => n + 1
          | none => 0
        some (max (max deepest least) 1, breaks, s)
  let (lines, rest) ← readLines isFolded indent false { empty } s
  return (lines.finish header.chomping, rest)

end TimingReport.Yaml.Block
