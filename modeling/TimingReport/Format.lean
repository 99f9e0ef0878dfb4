import TimingReport.Csv
import TimingReport.Markdown
import TimingReport.Page
import TimingReport.Text.Case

/-!
# Document formats
-/

namespace TimingReport

/-- The formats that a report can be written in. -/
inductive Format where
  | html
  | markdown
  | csv
deriving DecidableEq

namespace Format

/-- The name of the format. -/
def name : Format → String
  | html => "html"
  | markdown => "markdown"
  | csv => "csv"

/-- The customary ending of file names. -/
def extension : Format → String
  | html => "html"
  | markdown => "md"
  | csv => "csv"

/-- The format of a lower-case word; Markdown has a short name. -/
def ofWord? : String → Option Format
  | "html" => some html
  | "markdown" => some markdown
  | "md" => some markdown
  | "csv" => some csv
  | _ => none

/-- The format that a text names, without regard to case, or the lower-case word that
names none. -/
def ofText (text : String) : Except String Format :=
  let word := Text.lower text
  match ofWord? word with
  | some format => .ok format
  | none => .error word

/-- The refusal of a word that names no format. -/
def refusal (word : String) : String := "Unknown output format: " ++ word

/-- The document of a view. -/
def render : Format → View → String
  | html => Page.render
  | markdown => Markdown.render
  | csv => Csv.render

end Format

end TimingReport
