/-!
# Strings of TOML

A string stands between single or double quotes, of which only the double ones admit
escapes. Between three quotes it may span lines; a line feed right after them is left out.
-/

namespace TimingReport.Toml

/-- A reader of a value at the front of a text, which returns it with what is left. -/
abbrev Scan (α : Type) := List Char → Option (α × List Char)

/-- A character that comments and strings may hold as it is. -/
def isPrintable (c : Char) : Bool := c == '\t' || (0x20 ≤ c.toNat && c.toNat != 0x7F)

/-- A blank within a line. -/
def isSpace (c : Char) : Bool := c == ' ' || c == '\t'

/-- The value of a hexadecimal digit. -/
def hexValue? (c : Char) : Option Nat :=
  if '0' ≤ c ∧ c ≤ '9' then some (c.toNat - '0'.toNat)
  else if 'a' ≤ c ∧ c ≤ 'f' then some (c.toNat - 'a'.toNat + 10)
  else if 'A' ≤ c ∧ c ≤ 'F' then some (c.toNat - 'A'.toNat + 10)
  else none

/-- The character of a code point. -/
def charOf? (code : Nat) : Option Char :=
  if h : code.isValidChar then some (Char.ofNatAux code h) else none

/-- What a string has left open. -/
inductive Open where
  | nothing
  /-- A backslash was read. -/
  | escape
  /-- A code point lacks `missing` digits and has `value` so far. -/
  | code (missing value : Nat)
  /-- A carriage return was read, and a line feed must follow. -/
  | carriage
  /-- A backslash and blanks were read, and a line break must follow. -/
  | lineEnd
  | lineEndCarriage
  /-- A backslash and a line break were read, and blanks and line breaks are left out. -/
  | trimmed
  | trimmedCarriage
  /-- So many quotes were read. -/
  | quotes (count : Nat)

/-- The character of an escape with one letter. -/
def shortEscape? : Char → Option Char
  | 'b' => some '\x08'
  | 't' => some '\t'
  | 'n' => some '\n'
  | 'f' => some '\x0c'
  | 'r' => some '\r'
  | '"' => some '"'
  | '\\' => some '\\'
  | _ => none

/-- What follows a character behind a backslash. -/
def openEscape (c : Char) : Option (List Char × Open) :=
  match c with
  | 'u' => some ([], .code 4 0)
  | 'U' => some ([], .code 8 0)
  | c => (shortEscape? c).map fun d => ([d], .nothing)

/-- What follows a digit of a code point. -/
def openCode (missing value : Nat) (c : Char) : Option (List Char × Open) :=
  match hexValue? c with
  | none => none
  | some digit =>
      let value := value * 16 + digit
      if missing ≤ 1 then (charOf? value).map fun d => ([d], .nothing)
      else some ([], .code (missing - 1) value)

/-- The rest of a string on one line after its opening quote. The text so far is given in
reverse. -/
def lineText (quote : Char) (escapes : Bool) (read : List Char) : Open → Scan String
  | _, [] => none
  | .escape, c :: rest =>
      match openEscape c with
      | some (cs, still) => lineText quote escapes (cs ++ read) still rest
      | none => none
  | .code missing value, c :: rest =>
      match openCode missing value c with
      | some (cs, still) => lineText quote escapes (cs ++ read) still rest
      | none => none
  | _, c :: rest =>
      if c = quote then some (String.ofList read.reverse, rest)
      else if escapes && c = '\\' then lineText quote escapes read .escape rest
      else if isPrintable c then lineText quote escapes (c :: read) .nothing rest
      else none

/-- What follows a character in a string of several lines in which nothing is open. -/
def openLines (quote : Char) (escapes : Bool) (c : Char) : Option (List Char × Open) :=
  if c = quote then some ([], .quotes 1)
  else if escapes && c = '\\' then some ([], .escape)
  else if c = '\n' then some (['\n'], .nothing)
  else if c = '\r' then some ([], .carriage)
  else if isPrintable c then some ([c], .nothing)
  else none

/-- What follows a character behind a backslash and blanks. -/
def openLineEnd (c : Char) : Option (List Char × Open) :=
  if isSpace c then some ([], .lineEnd)
  else if c = '\n' then some ([], .trimmed)
  else if c = '\r' then some ([], .lineEndCarriage)
  else none

/-- What follows a character of a string of several lines; `quotes` are not closing. -/
def openNext (quote : Char) (escapes : Bool) : Open → Char → Option (List Char × Open)
  | .nothing, c => openLines quote escapes c
  | .escape, c => (openEscape c).or (openLineEnd c)
  | .code missing value, c => openCode missing value c
  | .carriage, c => if c = '\n' then some (['\n'], .nothing) else none
  | .lineEnd, c => openLineEnd c
  | .lineEndCarriage, c => if c = '\n' then some ([], .trimmed) else none
  | .trimmed, c =>
      if isSpace c || c = '\n' then some ([], .trimmed)
      else if c = '\r' then some ([], .trimmedCarriage)
      else openLines quote escapes c
  | .trimmedCarriage, c => if c = '\n' then some ([], .trimmed) else none
  | .quotes count, c =>
      if c = quote then some ([], .quotes (count + 1))
      else
        (openLines quote escapes c).map fun (cs, still) =>
          (cs ++ List.replicate count quote, still)

/-- The rest of a string of several lines after its opening quotes. The last three of up to
five quotes in a row end it. -/
def blockText (quote : Char) (escapes : Bool) (read : List Char) : Open → Scan String
  | .quotes count, [] =>
      if 3 ≤ count then
        some (String.ofList (List.replicate (count - 3) quote ++ read).reverse, [])
      else none
  | _, [] => none
  | .quotes count, c :: rest =>
      if 3 ≤ count ∧ (c ≠ quote ∨ count = 5) then
        some (String.ofList (List.replicate (count - 3) quote ++ read).reverse, c :: rest)
      else
        match openNext quote escapes (.quotes count) c with
        | some (cs, still) => blockText quote escapes (cs ++ read) still rest
        | none => none
  | still, c :: rest =>
      match openNext quote escapes still c with
      | some (cs, still) => blockText quote escapes (cs ++ read) still rest
      | none => none

/-- The text without a line break at its front. -/
def skipBreak : List Char → List Char
  | '\n' :: rest => rest
  | '\r' :: '\n' :: rest => rest
  | s => s

/-- A string on one line. -/
def oneLine : Scan String
  | '"' :: rest => lineText '"' true [] .nothing rest
  | '\'' :: rest => lineText '\'' false [] .nothing rest
  | _ => none

/-- A string. -/
def text : Scan String
  | '"' :: '"' :: '"' :: rest => blockText '"' true [] .nothing (skipBreak rest)
  | '\'' :: '\'' :: '\'' :: rest => blockText '\'' false [] .nothing (skipBreak rest)
  | s => oneLine s

end TimingReport.Toml
