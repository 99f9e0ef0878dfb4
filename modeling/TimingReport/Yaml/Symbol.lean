/-!
# The symbols of a YAML text

A text is read as a list of symbols, each a character at its place, with one more symbol
that marks the end. A line break is one symbol, however it is written.
-/

namespace TimingReport.Yaml

/-- Where a symbol stands. -/
structure Place where
  /-- The number of characters before it. -/
  index : Nat := 0
  line : Nat := 0
  column : Nat := 0
deriving DecidableEq

/-- The place after a character within a line. -/
def Place.next (p : Place) : Place := { p with index := p.index + 1, column := p.column + 1 }

/-- The place after a line break of so many characters. -/
def Place.nextLine (p : Place) (width : Nat) : Place := ⟨p.index + width, p.line + 1, 0⟩

/-- A character at its place. -/
structure Symbol where
  char : Char
  place : Place
deriving DecidableEq

/-- Marks the end of a text, in which it cannot stand itself. -/
def endMark : Char := '\x00'

/-- The separators of lines and paragraphs, which break a line and are kept in texts. -/
def isSeparator (c : Char) : Bool := c == '\u2028' || c == '\u2029'

/-- The character breaks a line. -/
def isBreak (c : Char) : Bool :=
  c == '\n' || c == '\r' || c == '\u0085' || isSeparator c

/-- A blank within a line. -/
def isBlank (c : Char) : Bool := c == ' ' || c == '\t'

/-- A word ends before the character. -/
def isGap (c : Char) : Bool := isBlank c || isBreak c || c == endMark

/-- A line ends before the character. -/
def isLineEnd (c : Char) : Bool := isBreak c || c == endMark

/-- The character may stand in a text at all. -/
def isAllowed (c : Char) : Bool :=
  let code := c.toNat
  code == 0x9 || code == 0xA || code == 0xD || (0x20 ≤ code && code ≤ 0x7E) || code == 0x85
    || (0xA0 ≤ code && code ≤ 0xFFFD) || 0x10000 ≤ code

/-- The symbols of a text that starts at a place. -/
def symbolsFrom (p : Place) : List Char → List Symbol
  | [] => [⟨endMark, p⟩]
  | '\r' :: '\n' :: rest => ⟨'\n', p⟩ :: symbolsFrom (p.nextLine 2) rest
  | c :: rest =>
      if isSeparator c then ⟨c, p⟩ :: symbolsFrom (p.nextLine 1) rest
      else if isBreak c then ⟨'\n', p⟩ :: symbolsFrom (p.nextLine 1) rest
      else ⟨c, p⟩ :: symbolsFrom p.next rest

/-- The mark that a text or a line may start with. -/
def byteOrderMark : Char := '\uFEFF'

/-- The symbols of a text, if all of its characters may stand in it. -/
def symbols? (text : String) : Option (List Symbol) :=
  if text.toList.all isAllowed then
    match text.toList with
    | c :: rest => some (symbolsFrom {} (if c = byteOrderMark then rest else c :: rest))
    | [] => some (symbolsFrom {} [])
  else none

/-! ## The front of a text -/

/-- A reader of a value at the front of the symbols, which returns it with what is left. -/
abbrev Scan (α : Type) := List Symbol → Option (α × List Symbol)

/-- The character at the front. -/
def front : List Symbol → Char
  | s :: _ => s.char
  | [] => endMark

/-- The place of the front. -/
def placeOf : List Symbol → Place
  | s :: _ => s.place
  | [] => {}

/-- What is left behind characters of a kind. -/
def skipWhile (isOfKind : Char → Bool) (s : List Symbol) : List Symbol :=
  s.dropWhile fun symbol => isOfKind symbol.char

/-- The characters of a kind at the front, and what is left. -/
def spanChars (isOfKind : Char → Bool) (s : List Symbol) : List Char × List Symbol :=
  ((s.takeWhile fun symbol => isOfKind symbol.char).map Symbol.char, skipWhile isOfKind s)

/-- The front is three of the given characters that fill the start of a line as a word. -/
def isMarker (c : Char) (s : List Symbol) : Bool :=
  (placeOf s).column == 0 && (s.take 3).map Symbol.char == [c, c, c] && isGap (front (s.drop 3))

/-- The front divides documents. -/
def isDivider (s : List Symbol) : Bool := isMarker '-' s || isMarker '.' s

/-- What is left after the rest of a line, which may hold a comment. -/
def skipComment (s : List Symbol) : List Symbol :=
  if front s = '#' then skipWhile (fun c => !isLineEnd c) s else s

/-- What is left after the blanks and the comment that end a line, and its line break. -/
def endOfLine (s : List Symbol) : Option (List Symbol) :=
  match skipComment (skipWhile isBlank s) with
  | [] => none
  | symbol :: rest =>
      if isBreak symbol.char then some rest
      else if symbol.char = endMark then some (symbol :: rest)
      else none

/-- The value of a hexadecimal digit. -/
def hexValue? (c : Char) : Option Nat :=
  if '0' ≤ c ∧ c ≤ '9' then some (c.toNat - '0'.toNat)
  else if 'a' ≤ c ∧ c ≤ 'f' then some (c.toNat - 'a'.toNat + 10)
  else if 'A' ≤ c ∧ c ≤ 'F' then some (c.toNat - 'A'.toNat + 10)
  else none

/-- The character of a code point. -/
def charOf? (code : Nat) : Option Char :=
  if h : code.isValidChar then some (Char.ofNatAux code h) else none

end TimingReport.Yaml
