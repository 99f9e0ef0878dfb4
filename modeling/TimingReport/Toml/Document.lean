import TimingReport.Toml.Value

/-!
# Documents of TOML

A document is a list of statements, one a line: values, and headers that name the table
to which the values below them belong.
-/

namespace TimingReport.Toml

/-- A line of a document. -/
inductive Statement where
  | value (assignment : Assignment)
  | header (path : List String)
  /-- A header in double brackets, which adds a table to a list. -/
  | listHeader (path : List String)

/-- What is left after the end of a line, which may hold a comment. -/
def endOfLine (s : List Char) : Option (List Char) :=
  let s := match skipSpace s with
    | '#' :: rest => rest.dropWhile isPrintable
    | s => s
  match s with
  | [] => some []
  | '\n' :: rest => some rest
  | '\r' :: '\n' :: rest => some rest
  | _ => none

/-- A statement, without the end of its line. -/
def statement : Scan Statement
  | '[' :: '[' :: rest => do
      let (path, s) ← keyPath rest
      return (.listHeader path, ← mark ']' (← mark ']' s))
  | '[' :: rest => do
      let (path, s) ← keyPath rest
      return (.header path, ← mark ']' s)
  | s => (assignment value s).map fun (a, rest) => (.value a, rest)

/-- The statements of a text of at most `fuel` lines. -/
def statements : Nat → List Char → Option (List Statement)
  | 0, _ => none
  | fuel + 1, s =>
      match skipSpace s with
      | [] => some []
      | c :: rest =>
          if c = '#' ∨ c = '\n' ∨ c = '\r' then do
            statements fuel (← endOfLine (c :: rest))
          else do
            let (found, s) ← statement (c :: rest)
            let others ← statements fuel (← endOfLine s)
            return found :: others

/-- The values that belong to one header. -/
structure Part where
  path : List String
  isElement : Bool
  values : List Assignment

/-- The values above all headers, and the parts below. -/
def divide : List Statement → List Assignment × List Part
  | [] => ([], [])
  | .value a :: rest =>
      let (values, parts) := divide rest
      (a :: values, parts)
  | .header path :: rest =>
      let (values, parts) := divide rest
      ([], ⟨path, false, values⟩ :: parts)
  | .listHeader path :: rest =>
      let (values, parts) := divide rest
      ([], ⟨path, true, values⟩ :: parts)

/-- The entries with the values of a part. -/
def Part.apply (entries : Entries) (part : Part) : Option Entries :=
  let fill (start : Entries) := part.values.foldlM Assignment.apply start
  if part.isElement then addTable part.path fill entries else defineTable part.path fill entries

/-- The entries that statements define. -/
def entriesOf (l : List Statement) : Option Entries := do
  let (values, parts) := divide l
  let top ← values.foldlM Assignment.apply []
  parts.foldlM Part.apply top

/-- The mark that a text may start with. -/
def byteOrderMark : Char := '\uFEFF'

/-- The entries of a document, if it is well formed and sets no key twice. -/
def document (text : String) : Option Entries :=
  let s := match text.toList with
    | c :: rest => if c = byteOrderMark then rest else c :: rest
    | [] => []
  statements (s.length + 1) s >>= entriesOf

end TimingReport.Toml
