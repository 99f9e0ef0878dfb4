/-!
# Occurrence of one text in another

A pattern occurs in a text if the text is some text, the pattern, and some text.
-/

namespace TimingReport.Text

/-- The pattern occurs somewhere in the characters. -/
def occursIn (pattern : List Char) : List Char → Bool
  | [] => pattern.isEmpty
  | c :: rest => pattern.isPrefixOf (c :: rest) || occursIn pattern rest

/-- The pattern occurs in the text: by whole characters, with regard to case. -/
def occurs (pattern text : String) : Bool := occursIn pattern.toList text.toList

end TimingReport.Text
