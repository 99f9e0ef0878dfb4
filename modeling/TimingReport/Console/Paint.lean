/-!
# Colours on the console

Text is painted with the escape sequences that terminals understand. A sequence behind the
text takes back what the one before it set.
-/

namespace TimingReport.Console

/-- The colours in use. -/
inductive Color where
  | white
  | gray
  | red
  | green
  | yellow
  | blue
  | magenta
  | cyan
  | brightWhite
deriving DecidableEq

/-- The number that stands for a colour in an escape sequence. -/
def Color.number : Color → Nat
  | white => 37
  | gray => 90
  | red => 91
  | green => 92
  | yellow => 93
  | blue => 94
  | magenta => 95
  | cyan => 96
  | brightWhite => 97

/-- An escape sequence that sets what a number stands for. -/
def escape (number : Nat) : String := "\x1b[" ++ toString number ++ "m"

/-- The text in a colour. -/
def paint (color : Color) (text : String) : String := escape color.number ++ text ++ escape 39

/-- The text in bold. -/
def bold (text : String) : String := escape 1 ++ text ++ escape 0

/-- The text in a colour and in bold. -/
def paintBold (color : Color) (text : String) : String := bold (paint color text)

end TimingReport.Console
