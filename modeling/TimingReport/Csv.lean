import TimingReport.Decimal.Shortest
import TimingReport.View

/-!
# The CSV document

One line for each benchmark, in report order, with the timings as numbers. Fields are
divided by commas and lines end with a line feed. A field is quoted only where it must
be, and a quote inside a quoted field is written twice.
-/

namespace TimingReport.Csv

/-- The character cannot stand in a bare field. -/
def needsQuotes (c : Char) : Bool := c == ',' || c == '"' || c == '\r' || c == '\n'

/-- The characters of a field between quotes. -/
def doubleQuotes (field : List Char) : List Char :=
  field.flatMap fun c => if c = '"' then ['"', '"'] else [c]

/-- A field as it is written. -/
def fieldText (field : List Char) : List Char :=
  if field.any needsQuotes then '"' :: doubleQuotes field ++ ['"'] else field

/-- The fields divided by commas. -/
def fieldsText : List (List Char) → List Char
  | [] => []
  | [field] => fieldText field
  | field :: rest => fieldText field ++ ',' :: fieldsText rest

/-- A record as a line. -/
def recordText (fields : List String) : List Char :=
  fieldsText (fields.map String.toList) ++ ['\n']

/-- The names of the columns. -/
def header : List String :=
  ["category", "name", "real_time_ns", "cpu_time_ns", "iterations", "items_per_second", "severity"]

/-- The fields of a benchmark. -/
def fields (category : Category) (row : Row) : List String := [
  category.label,
  row.record.name,
  Decimal.plain row.record.realTime,
  Decimal.plain row.record.cpuTime,
  toString row.record.iterations.toNat,
  (row.record.itemsPerSecond.map Decimal.plain).getD "",
  row.severity.word]

/-- The records of a view, the names of the columns first. -/
def records (view : View) : List (List String) :=
  header :: view.sections.flatMap fun s => s.rows.map (fields s.category)

/-- The document of a view. -/
def render (view : View) : String := String.ofList ((records view).flatMap recordText)

end TimingReport.Csv
