import TimingReport.Text.Ranges

/-!
# Blank texts

White space is the Unicode property of that name, which is wider than ASCII.
-/

namespace TimingReport.Text

/-- Ranges of the white space characters. -/
def blankRanges : List (Nat × Nat) := [
  (0x9, 0xD), (0x20, 0x20), (0x85, 0x85), (0xA0, 0xA0), (0x1680, 0x1680), (0x2000, 0x200A),
  (0x2028, 0x2029), (0x202F, 0x202F), (0x205F, 0x205F), (0x3000, 0x3000)]

/-- The character is white space. -/
def isBlank (c : Char) : Bool := inRanges blankRanges c.toNat

/-- The text holds nothing but white space. -/
def isBlankText (text : String) : Bool := text.toList.all isBlank

end TimingReport.Text
