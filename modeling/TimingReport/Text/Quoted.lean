import TimingReport.Text.Visible

/-!
# Quoted texts

A text is shown between double quotes, with a backslash before quotes and backslashes,
short escapes for the common control characters, and the code point in braces for every
other character without a shape of its own.
-/

namespace TimingReport.Text

/-- The digits of a natural number to base sixteen, in lower case. -/
def hexDigits (n : Nat) : List Char := Nat.toDigits 16 n

/-- A character as it stands in a quoted text. -/
def quotedChar (c : Char) : List Char :=
  match c with
  | '\x00' => ['\\', '0']
  | '\t' => ['\\', 't']
  | '\n' => ['\\', 'n']
  | '\r' => ['\\', 'r']
  | '"' => ['\\', '"']
  | '\\' => ['\\', '\\']
  | c =>
      if isVisible c then [c]
      else '\\' :: 'u' :: '\x7b' :: hexDigits c.toNat ++ ['\x7d']

/-- The text between quotes. -/
def quoted (text : String) : String :=
  String.ofList ('"' :: text.toList.flatMap quotedChar ++ ['"'])

/-- The text without the quotes at both its ends, however many there are. -/
def trimQuotes (text : String) : String :=
  let trimmed := text.toList.dropWhile (· == '"')
  String.ofList (trimmed.reverse.dropWhile (· == '"')).reverse

end TimingReport.Text
