import TimingReport.Text.Utf8
import TimingReport.Yaml.Symbol

/-!
# Tokens of YAML

Names of anchors, tags and directives, and the tokens that they and all else become.
-/

namespace TimingReport.Yaml

/-- A tag as it is written: a handle that a directive may define, and what follows it. A tag
without a handle stands for itself. -/
structure TagText where
  handle : String
  suffix : String
deriving DecidableEq

/-- A part of a document. -/
inductive Token where
  | version (major minor : Nat)
  /-- Defines what a handle stands for. -/
  | handle (name meaning : String)
  | documentStart
  | documentEnd
  | streamEnd
  | blockSequenceStart
  | blockMappingStart
  | blockEnd
  | flowSequenceStart
  | flowSequenceEnd
  | flowMappingStart
  | flowMappingEnd
  | blockEntry
  | flowEntry
  | key
  | value
  | alias (name : String)
  | anchor (name : String)
  | tag (tag : TagText)
  | text (value : String) (isPlain : Bool)
deriving DecidableEq

/-! ## Names -/

/-- A character of a name. -/
def isName (c : Char) : Bool := c.isAlphanum || c == '_' || c == '-'

/-- The name of an anchor at the front. -/
def anchorName (s : List Symbol) : Option (String × List Symbol) :=
  let (name, rest) := spanChars isName s
  let next := front rest
  if !name.isEmpty && (isGap next || ['?', ':', ',', ']', '\x7d', '%', '@', '\x60'].contains next)
  then some (String.ofList name, rest)
  else none

/-! ## Tags -/

/-- A character of a tag. Between angle brackets a tag may hold more. -/
def isTagChar (isBracketed : Bool) (c : Char) : Bool :=
  isName c
    || [';', '/', '?', ':', '@', '&', '=', '+', '$', '.', '!', '~', '*', '\'', '(', ')'].contains c
    || (isBracketed && [',', '[', ']'].contains c)

/-- The bytes of a tag at the front, in which an escape of two digits stands for a byte. -/
def tagBytes (isBracketed : Bool) : Scan (List UInt8)
  | ⟨'%', _⟩ :: a :: b :: rest => do
      let byte := UInt8.ofNat ((← hexValue? a.char) * 16 + (← hexValue? b.char))
      let (bytes, s) ← tagBytes isBracketed rest
      return (byte :: bytes, s)
  | s :: rest =>
      if isTagChar isBracketed s.char then do
        let (bytes, left) ← tagBytes isBracketed rest
        return (String.utf8EncodeChar s.char ++ bytes, left)
      else if s.char = '%' then none
      else some ([], s :: rest)
  | [] => some ([], [])

/-- The characters of a tag at the front. -/
def tagChars (isBracketed : Bool) (s : List Symbol) : Option (String × List Symbol) := do
  let (bytes, rest) ← tagBytes isBracketed s
  return (← Text.Utf8.decode? bytes, rest)

/-- What is left after a character that must be there. -/
def mark (c : Char) : List Symbol → Option (List Symbol)
  | s :: rest => if s.char = c then some rest else none
  | [] => none

/-- The text is not empty. -/
def nonempty (found : String × List Symbol) : Option (String × List Symbol) :=
  if found.1.isEmpty then none else some found

/-- A tag between angle brackets, behind the exclamation mark. -/
def bracketedTag (s : List Symbol) : Option (TagText × List Symbol) := do
  let (suffix, s) ← (← tagChars true (← mark '<' s)) |> nonempty
  return (⟨"", suffix⟩, ← mark '>' s)

/-- A tag without brackets, behind the exclamation mark. A single exclamation mark is a tag
of its own. -/
def shortTag (s : List Symbol) : Option (TagText × List Symbol) := do
  let (name, s) := spanChars isName s
  match mark '!' s with
  | some s =>
      let (suffix, s) ← (← tagChars false s) |> nonempty
      return (⟨"!" ++ String.ofList name ++ "!", suffix⟩, s)
  | none =>
      let (more, s) ← tagChars false s
      let suffix := String.ofList name ++ more
      return (if suffix.isEmpty then ⟨"", "!"⟩ else ⟨"!", suffix⟩, s)

/-- A tag behind its exclamation mark. -/
def tagText (inFlow : Bool) (s : List Symbol) : Option (TagText × List Symbol) := do
  let (found, rest) ← if front s = '<' then bracketedTag s else shortTag s
  let next := front rest
  if isGap next || (inFlow && next = ',') then return (found, rest) else none

/-! ## Directives -/

/-- A number of at most nine digits. -/
def versionNumber (s : List Symbol) : Option (Nat × List Symbol) :=
  let (digits, rest) := spanChars Char.isDigit s
  if digits.isEmpty || 9 < digits.length then none
  else some (digits.foldl (fun n c => n * 10 + (c.toNat - '0'.toNat)) 0, rest)

/-- The version of the language. -/
def versionDirective (s : List Symbol) : Option (Token × List Symbol) := do
  let (major, s) ← versionNumber (skipWhile isBlank s)
  let (minor, s) ← versionNumber (← mark '.' s)
  return (.version major minor, s)

/-- The handle of a directive, with its exclamation marks. -/
def handleName (s : List Symbol) : Option (String × List Symbol) := do
  let (name, s) := spanChars isName (← mark '!' s)
  match mark '!' s with
  | some s => return ("!" ++ String.ofList name ++ "!", s)
  | none => if name.isEmpty then return ("!", s) else none

/-- What a handle stands for. -/
def handleDirective (s : List Symbol) : Option (Token × List Symbol) := do
  let (name, s) ← handleName (skipWhile isBlank s)
  if !isBlank (front s) then none
  else
    let (meaning, s) ← (← tagChars true (skipWhile isBlank s)) |> nonempty
    if isGap (front s) then return (.handle name meaning, s) else none

/-- A directive behind its percent sign, with the end of its line. -/
def directive (s : List Symbol) : Option (Token × List Symbol) := do
  let (name, s) := spanChars isName s
  let (token, s) ←
    if !isGap (front s) then none
    else if name = ['Y', 'A', 'M', 'L'] then versionDirective s
    else if name = ['T', 'A', 'G'] then handleDirective s
    else none
  return (token, ← endOfLine s)

end TimingReport.Yaml
