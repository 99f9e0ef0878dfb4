import TimingReport.Console.Paint
import TimingReport.Decimal.Grouped
import TimingReport.Record
import TimingReport.Text.Case

/-!
# Events on the console

An event is a kind with texts and counts. Four kinds are known and each has a line of its
own; other events print nothing. A line shows stand-ins for whatever its event lacks.
-/

namespace TimingReport.Console

/-- An event with what was recorded about it. -/
structure Event where
  kind : Option String := none
  source : Option String := none
  path : Option String := none
  format : Option String := none
  category : Option String := none
  mean : Option String := none
  size : Option String := none
  records : Option UInt64 := none
  count : Option UInt64 := none
  sections : Option UInt64 := none
  bytes : Option UInt64 := none

/-- The kinds of events that print lines. -/
inductive Kind where
  | loaded
  | category
  | rendered
  | written
deriving DecidableEq

/-- The word for a kind. -/
def Kind.word : Kind → String
  | loaded => "load_end"
  | category => "category"
  | rendered => "render_end"
  | written => "write_end"

/-- The kind of a word. -/
def Kind.ofWord? (word : String) : Option Kind :=
  [loaded, category, rendered, written].find? (·.word == word)

namespace Event

/-- Stands for the name of a file that is not known. -/
def unknownFile : String := "?"

/-- Divides the parts of a line. -/
def divider : String := " │ "

/-- A count as it is shown; an absent one is zero. -/
def countText (count : Option UInt64) : String := Decimal.grouped (count.getD 0).toNat

/-- The text filled up with blanks on the right to at least `width` characters. -/
def padRight (width : Nat) (text : String) : String :=
  text ++ String.ofList (List.replicate (width - text.length) ' ')

/-- The text filled up with blanks on the left to at least `width` characters. -/
def padLeft (width : Nat) (text : String) : String :=
  String.ofList (Decimal.padLeft width ' ' text.toList)

/-- The time since the start in seconds, from milliseconds. -/
def elapsedText (elapsed : Nat) : String :=
  paint .gray (padLeft 7 (String.ofList (Decimal.pointed 3 elapsed)) ++ "s")

/-- What the line of a kind says about an event. -/
def words (event : Event) : Kind → String
  | .loaded =>
      paintBold .green "▶" ++ " Loaded " ++ paint .yellow (countText event.records)
        ++ " benchmarks" ++ divider ++ paint .white (event.source.getD unknownFile)
  | .category =>
      paint .blue "•" ++ " " ++ paintBold .white (padRight 8 (event.category.getD unknownName))
        ++ divider ++ paint .white (padLeft 6 (countText event.count)) ++ " benchmarks"
        ++ divider ++ "avg " ++ paint .magenta (event.mean.getD notAvailable)
  | .rendered =>
      paint .cyan "◆" ++ " Rendered "
        ++ paintBold .white (Text.upper (event.format.getD "html"))
        ++ divider ++ paint .yellow (countText event.sections) ++ " sections"
        ++ divider ++ paint .yellow (countText event.bytes) ++ " bytes"
  | .written =>
      paintBold .green "■" ++ " Wrote " ++ paintBold .white (event.path.getD unknownFile)
        ++ divider ++ paint .magenta (event.size.getD notAvailable)

/-- The line of an event, printed so many milliseconds after the start. -/
def line? (elapsed : Nat) (event : Event) : Option String :=
  (event.kind.bind Kind.ofWord?).map fun kind => elapsedText elapsed ++ " " ++ event.words kind

end Event

end TimingReport.Console
