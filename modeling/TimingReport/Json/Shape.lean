import TimingReport.Json.Number
import TimingReport.Json.Skip
import TimingReport.Json.Text

/-!
# Values of a wanted shape

Readers of texts, numbers, lists and records. A record is written as an object, whose
unknown members are passed over, or as the list of its fields in order, of which the
last ones may be left out.
-/

namespace TimingReport.Json

variable [Medium]

/-- What stands at the front where something else is wanted, or the fault of its own. -/
def mismatch (wanted : String) (s : Symbols) : Fault :=
  let literal (rest : List Char) (found : Found) (s : Symbols) : Fault :=
    match readLiteral rest s with
    | .ok _ => .wrongType found wanted
    | .error fault => fault
  match s with
  | some 'n' :: rest => literal ['u', 'l', 'l'] .nothing rest
  | some 't' :: rest => literal ['r', 'u', 'e'] (.boolean true) rest
  | some 'f' :: rest => literal ['a', 'l', 's', 'e'] (.boolean false) rest
  | some '"' :: rest =>
      match readString rest with
      | .ok (text, _) => .wrongType (.text text) wanted
      | .error fault => fault
  | some '[' :: _ => .wrongType .sequence wanted
  | some '\x7b' :: _ => .wrongType .mapping wanted
  | d :: _ =>
      if isDigit d ∨ d = some '-' then
        match readNumber s with
        | .ok (.integer n, _) => .wrongType (.integer n) wanted
        | .ok (.real x, _) => .wrongType (.real x) wanted
        | .error fault => fault
      else .expectedValue
  | [] => .endInValue

/-- A text. -/
def text : Reader String := fun s =>
  match skipBlank s with
  | some '"' :: rest => readString rest
  | s => .error (mismatch "a string" s)

/-- A number, or the fault of what stands in its place. -/
def number (wanted : String) : Reader Number := fun s =>
  match skipBlank s with
  | d :: rest =>
      if isDigit d ∨ d = some '-' then readNumber (d :: rest)
      else .error (mismatch wanted (d :: rest))
  | [] => .error .endInValue

/-- A number as a binary64 number. -/
def real : Reader Binary64 := fun s => do
  match ← number "f64" s with
  | (.integer n, rest) =>
      let x := Binary64.ofNat n.natAbs
      return (if n < 0 then -x else x, rest)
  | (.real x, rest) => return (x, rest)

/-- A natural number below `2 ^ bits`. -/
def natural (bits : Nat) : Reader Nat := fun s => do
  let wanted := "u" ++ toString bits
  match ← number wanted s with
  | (.integer n, rest) =>
      if 0 ≤ n ∧ n.toNat < Nat.pow 2 bits then return (n.toNat, rest)
      else .error (.outOfBounds n wanted)
  | (.real x, _) => .error (.wrongType (.real x) wanted)

/-- A value that may be `null`. -/
def optional {α : Type} (reader : Reader α) : Reader (Option α) := fun s =>
  match skipBlank s with
  | some 'n' :: rest => do return (none, ← readLiteral ['u', 'l', 'l'] rest)
  | s => (reader s).map fun (a, rest) => (some a, rest)

/-! ## Lists -/

/-- Where the next element of a list starts, or what is left after the list. -/
inductive NextElement where
  | starts (s : Symbols)
  | closed (rest : Symbols)

/-- Looks for the next element of a list, the first one or one after a comma. -/
def nextElement (first : Bool) (s : Symbols) : Except Fault NextElement :=
  match skipBlank s with
  | [] => .error .endInList
  | some ']' :: rest => .ok (.closed rest)
  | d :: rest =>
      if first then .ok (.starts (d :: rest))
      else if d = some ',' then
        match skipBlank rest with
        | [] => .error .endInValue
        | some ']' :: _ => .error .trailingComma
        | s => .ok (.starts s)
      else .error .expectedListSeparator

/-- The rest of a list, with the elements read so far in reverse. Every element takes at
least one byte, so `fuel` elements are enough for as many bytes. -/
def readElements {α : Type} (reader : Reader α) (read : List α) : Nat → Bool → Reader (List α)
  | 0, _, _ => .error .endInList
  | fuel + 1, first, s =>
      match nextElement first s with
      | .error fault => .error fault
      | .ok (.closed rest) => .ok (read.reverse, rest)
      | .ok (.starts s) =>
          match reader s with
          | .error fault => .error fault
          | .ok (a, s) => readElements reader (a :: read) fuel false s

/-- A list. -/
def list {α : Type} (reader : Reader α) : Reader (List α) := fun s =>
  match skipBlank s with
  | some '[' :: rest => readElements reader [] (Medium.width rest + 1) true rest
  | [] => .error .endInValue
  | s => .error (mismatch "a sequence" s)

/-- The end of a list of which no more elements are wanted. -/
def endList (s : Symbols) : Except Fault Symbols :=
  match skipBlank s with
  | [] => .error .endInList
  | some ']' :: rest => .ok rest
  | some ',' :: rest =>
      match skipBlank rest with
      | some ']' :: _ => .error .trailingComma
      | _ => .error .trailingCharacters
  | _ :: _ => .error .trailingCharacters

/-! ## Records -/

/-- A field of a record `σ`: its name, and a reader that puts its value into the record. -/
structure Field (σ : Type) where
  name : String
  read : σ → Reader σ

/-- A field that may be absent, given by what it sets. -/
def Field.ofOptional {σ α : Type} (name : String) (reader : Reader α) (set : σ → Option α → σ) :
    Field σ where
  name := name
  read r s := (optional reader s).map fun (a, rest) => (set r a, rest)

/-- Where the next member of an object starts, after the quote of its key, or what is
left after the object. -/
def nextMember (first : Bool) (s : Symbols) : Except Fault NextElement :=
  match skipBlank s with
  | [] => .error .endInObject
  | some '\x7d' :: rest => .ok (.closed rest)
  | d :: rest =>
      if first then
        if d = some '"' then .ok (.starts rest) else .error .keyNoString
      else if d = some ',' then
        match skipBlank rest with
        | [] => .error .endInValue
        | some '"' :: rest => .ok (.starts rest)
        | some '\x7d' :: _ => .error .trailingComma
        | _ :: _ => .error .keyNoString
      else .error .expectedObjectSeparator

/-- What is left after the colon between a key and its value. -/
def readColon (s : Symbols) : Except Fault Symbols :=
  match skipBlank s with
  | some ':' :: rest => .ok rest
  | [] => .error .endInObject
  | _ :: _ => .error .expectedColon

/-- The rest of an object: known members are put into the record, and unknown ones are
passed over. A known key must not come twice. -/
def readMembers {σ : Type} (fields : List (Field σ)) :
    Nat → Bool → List String → σ → Reader σ
  | 0, _, _, _, _ => .error .endInObject
  | fuel + 1, first, seen, r, s =>
      match nextMember first s with
      | .error fault => .error fault
      | .ok (.closed rest) => .ok (r, rest)
      | .ok (.starts s) =>
          match readString s with
          | .error fault => .error fault
          | .ok (key, s) =>
              match fields.find? (·.name == key) with
              | some field =>
                  if seen.contains key then .error (.duplicateField key)
                  else
                    match readColon s >>= field.read r with
                    | .error fault => .error fault
                    | .ok (r, s) => readMembers fields fuel false (key :: seen) r s
              | none =>
                  match readColon s >>= Skip.value with
                  | .error fault => .error fault
                  | .ok s => readMembers fields fuel false seen r s

/-- The rest of a record written as a list: the fields in order, the last ones of which
may be left out. -/
def readPositions {σ : Type} : List (Field σ) → Bool → σ → Reader σ
  | [], _, r, s => (endList s).map fun rest => (r, rest)
  | field :: fields, first, r, s =>
      match nextElement first s with
      | .error fault => .error fault
      | .ok (.closed rest) => .ok (r, rest)
      | .ok (.starts s) =>
          match field.read r s with
          | .error fault => .error fault
          | .ok (r, s) => readPositions fields false r s

/-- How a record was written. -/
inductive Form where
  | named
  | positional

/-- A record with the given fields, and how it was written. -/
def record {σ : Type} (wanted : String) (fields : List (Field σ)) (empty : σ) :
    Reader (σ × Form) := fun s =>
  match skipBlank s with
  | some '\x7b' :: rest =>
      (readMembers fields (Medium.width rest + 1) true [] empty rest).map
        fun (r, rest) => ((r, .named), rest)
  | some '[' :: rest =>
      (readPositions fields true empty rest).map fun (r, rest) => ((r, .positional), rest)
  | [] => .error .endInValue
  | s => .error (mismatch wanted s)

/-- A whole document of one value. -/
def document {α : Type} (reader : Reader α) (s : Symbols) : Except Fault α :=
  match reader s with
  | .error fault => .error fault
  | .ok (a, rest) =>
      if (skipBlank rest).isEmpty then .ok a else .error .trailingCharacters

end TimingReport.Json
