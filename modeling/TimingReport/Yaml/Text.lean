import TimingReport.Yaml.Gap

/-!
# Texts of YAML

A text stands between single or double quotes, or plainly without any. Only double quotes
admit escapes, and between single ones a quote is written twice.
-/

namespace TimingReport.Yaml

/-! ## Quoted texts -/

/-- What a quoted text has left open. -/
inductive Open where
  | nothing
  /-- A single quote was read. -/
  | quote
  /-- A backslash was read. -/
  | escape
  /-- A code point lacks `missing` digits and has `value` so far. -/
  | code (missing value : Nat)

/-- The character of an escape with one letter. -/
def shortEscape? : Char → Option Char
  | '0' => some '\x00'
  | 'a' => some '\x07'
  | 'b' => some '\x08'
  | 't' => some '\t'
  | '\t' => some '\t'
  | 'n' => some '\n'
  | 'v' => some '\x0b'
  | 'f' => some '\x0c'
  | 'r' => some '\r'
  | 'e' => some '\x1b'
  | ' ' => some ' '
  | '"' => some '"'
  | '/' => some '/'
  | '\\' => some '\\'
  | 'N' => some '\u0085'
  | '_' => some '\u00a0'
  | 'L' => some '\u2028'
  | 'P' => some '\u2029'
  | _ => none

/-- The number of digits behind the letter of an escaped code point. -/
def codeLength? : Char → Option Nat
  | 'x' => some 2
  | 'u' => some 4
  | 'U' => some 8
  | _ => none

/-- What follows a character behind a backslash. -/
def openEscape (c : Char) : Option (List Char × Open) :=
  match codeLength? c with
  | some length => some ([], .code length 0)
  | none => (shortEscape? c).map fun d => ([d], .nothing)

/-- What follows a digit of a code point. -/
def openCode (missing value : Nat) (c : Char) : Option (List Char × Open) :=
  match hexValue? c with
  | none => none
  | some digit =>
      let value := value * 16 + digit
      if missing ≤ 1 then (charOf? value).map fun d => ([d], .nothing)
      else some ([], .code (missing - 1) value)

/-- The rest of a text after its opening quote. The text so far, without the gap since, is
given in reverse. -/
def quotedText (quote : Char) (read : List Char) (gap : Gap) : Open → Scan String
  | _, [] => none
  | .quote, s :: rest =>
      if s.char = quote then quotedText quote (s.char :: read) gap .nothing rest
      else some (String.ofList read.reverse, s :: rest)
  | .escape, s :: rest =>
      if isBreak s.char then quotedText quote read (.breaks none []) .nothing rest
      else
        match openEscape s.char with
        | some (cs, still) => quotedText quote (cs ++ read) gap still rest
        | none => none
  | .code missing value, s :: rest =>
      match openCode missing value s.char with
      | some (cs, still) => quotedText quote (cs ++ read) gap still rest
      | none => none
  | .nothing, s :: rest =>
      if isBlank s.char || isBreak s.char then quotedText quote read (gap.add s.char) .nothing rest
      else if s.char = endMark || isDivider (s :: rest) then none
      else
        let read := gap.text.reverse ++ read
        if s.char = quote then
          if quote = '\'' then quotedText quote read .nothing .quote rest
          else some (String.ofList read.reverse, rest)
        else if quote = '"' && s.char = '\\' then quotedText quote read .nothing .escape rest
        else quotedText quote (s.char :: read) .nothing .nothing rest

/-- A quoted text. -/
def quoted : Scan String
  | s :: rest => quotedText s.char [] .nothing .nothing rest
  | [] => none

/-! ## Plain texts -/

/-- A character that shapes collections in braces and brackets. -/
def isFlowMark (c : Char) : Bool :=
  c == ',' || c == '[' || c == ']' || c == '\x7b' || c == '\x7d'

/-- A plain text, and whether a line break ended it. Within brackets, a colon must not stand
before a character that shapes collections. Outside of them, a line that is not indented
enough ends the text. -/
def plainText (inFlow : Bool) (indent : Nat) (read : List Char) (gap : Gap) : Scan (String × Bool)
  | [] => none
  | s :: rest =>
      let c := s.char
      let next := front rest
      let found := some ((String.ofList read.reverse, gap.isBroken), s :: rest)
      if isBlank c && gap.isBroken then
        if c = '\t' && s.place.column < indent then none
        else plainText inFlow indent read gap rest
      else if isBlank c || isBreak c then plainText inFlow indent read (gap.add c) rest
      else if c = endMark then found
      else if gap ≠ .nothing ∧
          (c = '#' ∨ isDivider (s :: rest) ∨ (!inFlow ∧ s.place.column < indent)) then found
      else if inFlow && c = ':' && (next = '?' || isFlowMark next) then none
      else if (c = ':' && isGap next) || (inFlow && isFlowMark c) then found
      else plainText inFlow indent (c :: gap.text.reverse ++ read) .nothing rest

/-- Marks that no plain text starts with, besides those that divide flow collections. -/
def reservedMarks : List Char := ['#', '&', '*', '!', '|', '>', '\'', '"', '%', '@', '\x60']

/-- A plain text may start at the front. -/
def startsPlain (inFlow : Bool) (s : List Symbol) : Bool :=
  let c := front s
  let next := front (s.drop 1)
  if c = '-' then !isBlank next
  else if c = '?' || c = ':' then !inFlow && !isGap next
  else !isGap c && !isFlowMark c && !reservedMarks.contains c

end TimingReport.Yaml
