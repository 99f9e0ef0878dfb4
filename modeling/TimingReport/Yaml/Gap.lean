import TimingReport.Yaml.Symbol

/-!
# Gaps within a text

Between the words of a text there may be blanks and line breaks. Blanks are kept, but not
around line breaks. One line feed becomes a space, and of several all but the first are kept.
-/

namespace TimingReport.Yaml

/-- What was read since the last word. -/
inductive Gap where
  | nothing
  | blanks (text : List Char)
  /-- A first line break, which is absent if it was escaped, and those that follow. -/
  | breaks (first : Option Char) (others : List Char)
deriving DecidableEq

namespace Gap

/-- The text that stands for the gap. -/
def text : Gap → List Char
  | nothing => []
  | blanks cs => cs
  | breaks (some '\n') [] => [' ']
  | breaks (some '\n') others => others
  | breaks first others => first.toList ++ others

/-- The gap has a line break. -/
def isBroken : Gap → Bool
  | breaks _ _ => true
  | _ => false

/-- The gap with one more blank. -/
def addBlank (c : Char) : Gap → Gap
  | nothing => blanks [c]
  | blanks cs => blanks (cs ++ [c])
  | breaks first others => breaks first others

/-- The gap with one more line break. -/
def addBreak (c : Char) : Gap → Gap
  | breaks first others => breaks first (others ++ [c])
  | _ => breaks (some c) []

/-- The gap with one more blank or line break. -/
def add (c : Char) (gap : Gap) : Gap := if isBreak c then gap.addBreak c else gap.addBlank c

end Gap

end TimingReport.Yaml
