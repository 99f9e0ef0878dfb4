import TimingReport.Toml.Number
import TimingReport.Toml.Table

/-!
# Values of TOML as text

Arrays may span lines and hold comments; tables in braces stand on one line.
-/

namespace TimingReport.Toml

/-! ## Layout -/

/-- What is left after blanks. -/
def skipSpace (s : List Char) : List Char := s.dropWhile isSpace

/-- What is left after blanks, line breaks and comments. The flag says that a comment is
open, which only a line break ends. -/
def skipLayout : Bool → List Char → Option (List Char)
  | _, [] => some []
  | comment, c :: rest =>
      if c = '\n' then skipLayout false rest
      else if c = '\r' then if rest.head? = some '\n' then skipLayout comment rest else none
      else if comment then if isPrintable c then skipLayout true rest else none
      else if isSpace c then skipLayout false rest
      else if c = '#' then skipLayout true rest
      else some (c :: rest)

/-! ## Keys -/

/-- A character of a key without quotes. -/
def isBare (c : Char) : Bool := c.isAlphanum || c == '-' || c == '_'

/-- One key. -/
def simpleKey (s : List Char) : Option (String × List Char) :=
  match oneLine s with
  | some found => some found
  | none =>
      let key := s.takeWhile isBare
      if key.isEmpty then none else some (String.ofList key, s.dropWhile isBare)

/-- So many levels may not be reached, neither by keys nor by values. -/
def maxLevels : Nat := 80

/-- Keys divided by points, at most as many as the first argument says. -/
def dottedKey : Nat → Scan (List String)
  | 0, _ => none
  | more + 1, s => do
      let (key, s) ← simpleKey (skipSpace s)
      match skipSpace s with
      | '.' :: rest => (dottedKey more rest).map fun (keys, s) => (key :: keys, s)
      | s => return ([key], s)

/-- A path of keys. -/
def keyPath : Scan (List String) := dottedKey (maxLevels - 1)

/-- A value that belongs to a path of keys. -/
structure Assignment where
  path : List String
  value : Node

/-- A path of keys and its value. -/
def assignment (value : Scan Node) (s : List Char) : Option (Assignment × List Char) := do
  let (path, s) ← keyPath s
  let s ← mark '=' s
  let (node, s) ← value (skipSpace s)
  return (⟨path, node⟩, s)

/-- The entries with one more value, if its key is free. -/
def Assignment.apply (entries : Entries) (a : Assignment) : Option Entries :=
  define a.path a.value entries

/-! ## Values -/

/-- The rest of an array, with at most `fuel` further items. -/
def items (value : Scan Node) : Nat → Scan (List Node)
  | 0, _ => none
  | fuel + 1, s =>
      match skipLayout false s with
      | some (']' :: rest) => some ([], rest)
      | some s => do
          let (node, s) ← value s
          match ← skipLayout false s with
          | ',' :: rest => (items value fuel rest).map fun (nodes, s) => (node :: nodes, s)
          | ']' :: rest => return ([node], rest)
          | _ => none
      | none => none

/-- The rest of a table in braces that is not empty, with at most `fuel` further values. -/
def members (value : Scan Node) : Nat → Scan (List Assignment)
  | 0, _ => none
  | fuel + 1, s => do
      let (a, s) ← assignment value s
      match skipSpace s with
      | ',' :: rest => (members value fuel rest).map fun (others, s) => (a :: others, s)
      | '\x7d' :: rest => return ([a], rest)
      | _ => none

/-- The rest of a table in braces. -/
def inlineTable (value : Scan Node) (s : List Char) : Option (Node × List Char) := do
  let (assignments, rest) ← match skipSpace s with
    | '\x7d' :: rest => some ([], rest)
    | s => members value s.length s
  let entries ← assignments.foldlM Assignment.apply []
  return (.table .inline entries, rest)

/-- A value in which arrays and tables hold values of the given kind, if they may be
opened at all. -/
def valueWithin (inner : Option (Scan Node)) (s : List Char) : Option (Node × List Char) :=
  match s with
  | [] => none
  | '[' :: rest => do
      let inner ← inner
      let (nodes, rest) ← items inner (rest.length + 1) rest
      return (.array nodes, rest)
  | '\x7b' :: rest => do inlineTable (← inner) rest
  | 't' :: 'r' :: 'u' :: 'e' :: rest => some (.boolean true, rest)
  | 'f' :: 'a' :: 'l' :: 's' :: 'e' :: rest => some (.boolean false, rest)
  | c :: _ =>
      if c = '"' ∨ c = '\'' then (text s).map fun (value, rest) => (.text value, rest)
      else number s

/-- A value in which so many arrays and tables may be open at once. -/
def valueTo : Nat → Scan Node
  | 0 => valueWithin none
  | levels + 1 => valueWithin (some (valueTo levels))

/-- A value. -/
def value : Scan Node := valueTo (maxLevels - 1)

end TimingReport.Toml
