import TimingReport.Json.Symbols

/-!
# Strings of JSON

A string is read one symbol at a time, with a state that says what is still open: an
escape, the digits of a code unit, or the second half of a surrogate pair.
-/

namespace TimingReport.Json

/-- What a string has left open. -/
inductive Open where
  | nothing
  /-- A backslash was read. -/
  | escape
  /-- Digits of a code unit, of which `count` make up `value`, after a leading surrogate
  if there was one. -/
  | hex (lead : Option Nat) (count value : Nat)
  /-- After a leading surrogate, a backslash must follow. -/
  | pairEscape (lead : Nat)
  /-- After a leading surrogate and a backslash, a `u` must follow. -/
  | pairLetter (lead : Nat)

/-- The character of an escape with one letter. -/
def shortEscape? : Char → Option Char
  | '"' => some '"'
  | '\\' => some '\\'
  | '/' => some '/'
  | 'b' => some '\x08'
  | 'f' => some '\x0c'
  | 'n' => some '\n'
  | 'r' => some '\r'
  | 't' => some '\t'
  | _ => none

/-- The code unit is the first half of a surrogate pair. -/
def isLeading (unit : Nat) : Bool := 0xD800 ≤ unit && unit ≤ 0xDBFF

/-- The code unit is the second half of a surrogate pair. -/
def isTrailing (unit : Nat) : Bool := 0xDC00 ≤ unit && unit ≤ 0xDFFF

/-- The character of a surrogate pair. -/
def pairedChar (lead trail : Nat) : Char :=
  Char.ofNat (0x10000 + (lead - 0xD800) * 0x400 + (trail - 0xDC00))

/-- What follows a complete code unit: a character, or the wait for the second half. -/
def closeUnit (lead : Option Nat) (unit : Nat) : Except Fault (Option Char × Open) :=
  match lead with
  | none =>
      if isTrailing unit then .error .loneSurrogate
      else if isLeading unit then .ok (none, .pairEscape unit)
      else .ok (some (Char.ofNat unit), .nothing)
  | some first =>
      if isTrailing unit then .ok (some (pairedChar first unit), .nothing)
      else .error .loneSurrogate

variable [Medium]

/-- The rest of a string after its opening quote. The symbols read so far are given in
reverse; bytes that are no text are refused when the string ends. -/
def readText (read : Symbols) : Open → Reader String
  | _, [] => .error .endInString
  | .nothing, s :: rest =>
      if s = some '"' then
        match Medium.characters? read.reverse with
        | some cs => .ok (String.ofList cs, rest)
        | none => .error .invalidCharacter
      else if s = some '\\' then readText read .escape rest
      else if isControl s then .error .controlCharacter
      else readText (s :: read) .nothing rest
  | .escape, s :: rest =>
      if s = some 'u' then readText read (.hex none 0 0) rest
      else
        match s.bind shortEscape? with
        | some c => readText (push c read) .nothing rest
        | none => .error .invalidEscape
  | .hex lead count value, s :: rest =>
      match hexValue? s with
      | none => .error (hexFault (4 - count) (s :: rest))
      | some digit =>
          let value := value * 16 + digit
          if count < 3 then readText read (.hex lead (count + 1) value) rest
          else
            match closeUnit lead value with
            | .error fault => .error fault
            | .ok (some c, still) => readText (push c read) still rest
            | .ok (none, still) => readText read still rest
  | .pairEscape lead, s :: rest =>
      if s = some '\\' then readText read (.pairLetter lead) rest
      else .error .brokenSurrogatePair
  | .pairLetter lead, s :: rest =>
      if s = some 'u' then readText read (.hex (some lead) 0 0) rest
      else .error .brokenSurrogatePair

/-- The rest of a string after its opening quote. -/
def readString : Reader String := readText [] .nothing

end TimingReport.Json
