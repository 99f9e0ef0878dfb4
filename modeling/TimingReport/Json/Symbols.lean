import TimingReport.Json.Fault
import TimingReport.Text.Utf8

/-!
# What the readers of JSON consume

A document is a list of symbols: the characters of a text, with `none` for bytes that
are no well-formed text, or the bytes themselves. A reader takes a value from the front
of the symbols and returns it with what is left, or the first fault.

All the syntax of JSON is ASCII, so the readers are the same for both. Only what a string
holds depends on what the symbols are.
-/

namespace TimingReport.Json

/-- The rest of a document. -/
abbrev Symbols := List (Option Char)

/-- A reader of a value at the front of a document. -/
abbrev Reader (α : Type) := Symbols → Except Fault (α × Symbols)

/-! ## Media -/

/-- What the symbols of a document are. -/
class Medium where
  /-- The number of bytes that symbols stand for. -/
  width : Symbols → Nat
  /-- The symbols of a character that an escape stands for. -/
  letters : Char → Symbols
  /-- The characters of the symbols of a string, if they are all well formed. -/
  characters? : Symbols → Option (List Char)

/-- Every symbol is a character. -/
instance Medium.text : Medium where
  width := Text.Utf8.width
  letters c := [some c]
  characters? := Text.Utf8.characters?

/-- The symbol of a byte: the character with its number. -/
def ofByte (b : UInt8) : Option Char := some (Char.ofNat b.toNat)

/-- The byte that a symbol stands for. -/
def toByte (s : Option Char) : UInt8 := UInt8.ofNat ((s.map Char.toNat).getD 0)

/-- Every symbol is a byte. The bytes of a string are gathered as they come, escapes in
UTF-8, and are checked when the string has ended. -/
@[reducible] def Medium.bytes : Medium where
  width := List.length
  letters c := (String.utf8EncodeChar c).map ofByte
  characters? s := Text.Utf8.characters? (Text.Utf8.symbols (s.map toByte))

/-- The symbols of a string read so far, in reverse, after one more character. -/
def push [Medium] (c : Char) (read : Symbols) : Symbols := (Medium.letters c).reverse ++ read

/-! ## Single symbols -/

/-- The symbol is white space between the parts of a document. -/
def isBlank (s : Option Char) : Bool :=
  s == some ' ' || s == some '\n' || s == some '\t' || s == some '\r'

/-- What is left after white space. -/
def skipBlank (s : Symbols) : Symbols := s.dropWhile isBlank

/-- The symbol is a decimal digit. -/
def isDigit : Option Char → Bool
  | some c => c.isDigit
  | none => false

/-- The value of a hexadecimal digit. -/
def hexValue? : Option Char → Option Nat
  | some c =>
      if '0' ≤ c ∧ c ≤ '9' then some (c.toNat - '0'.toNat)
      else if 'a' ≤ c ∧ c ≤ 'f' then some (c.toNat - 'a'.toNat + 10)
      else if 'A' ≤ c ∧ c ≤ 'F' then some (c.toNat - 'A'.toNat + 10)
      else none
  | none => none

/-- The fault of a hexadecimal escape that still needs `missing` digits and goes on with
symbols that start with no such digit. An escape takes four bytes, whatever they are, so
a document that has fewer of them ends within the string. -/
def hexFault [Medium] (missing : Nat) (s : Symbols) : Fault :=
  if Medium.width (s.take missing) < missing then .endInString else .invalidEscape

/-- The control characters, which no string holds as they are. -/
def isControl : Option Char → Bool
  | some c => c.toNat < 0x20
  | none => false

/-- What is left after the given characters. -/
def readLiteral : List Char → Symbols → Except Fault Symbols
  | [], s => .ok s
  | _ :: _, [] => .error .endInValue
  | c :: rest, d :: s => if d = some c then readLiteral rest s else .error .expectedLiteral

end TimingReport.Json
