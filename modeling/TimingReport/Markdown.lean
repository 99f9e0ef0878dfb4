import TimingReport.View

/-!
# The Markdown document

A report as Markdown text: a list about the run, then two tables for each section, and
the name of the source file. The document is a list of lines, each ended by a line feed.
-/

namespace TimingReport.Markdown

/-- A name inside a table cell: a pipe is escaped, so that it does not end the cell. -/
def escapeCell (name : String) : String :=
  String.ofList (name.toList.flatMap fun c => if c = '|' then ['\\', '|'] else [c])

/-- A table line with the given cells. -/
def tableLine (cells : List String) : String := "| " ++ " | ".intercalate cells ++ " |"

/-- The line between a table's heading and its rows, for columns of the given widths. -/
def ruleLine (widths : List Nat) : String :=
  "|" ++ "|".intercalate (widths.map fun width => String.ofList (List.replicate width '-')) ++ "|"

/-- The row of a benchmark. -/
def rowLine (row : Row) : String :=
  tableLine [escapeCell row.record.name, row.realTime ++ " (" ++ row.severity.word ++ ")",
    row.cpuTime, row.iterations, row.throughput]

/-- The table of a section's figures. -/
def figureLines (s : Section) : List String := [
  tableLine ["Metric", "Value"],
  ruleLine [8, 7],
  tableLine ["Benchmarks", s.count],
  tableLine ["Avg Time", s.average],
  tableLine ["Median Time", s.median],
  tableLine ["Min Time", s.fastest],
  tableLine ["Max Time", s.slowest]]

/-- The table of a section's benchmarks. -/
def benchmarkLines (s : Section) : List String :=
  tableLine ["Benchmark", "Real Time", "CPU Time", "Iterations", "Throughput"]
    :: ruleLine [11, 11, 10, 12, 12]
    :: s.rows.map rowLine

/-- The lines about one category. -/
def sectionLines (s : Section) : List String :=
  ["## " ++ s.category.label ++ " Benchmarks", ""]
    ++ figureLines s ++ [""]
    ++ benchmarkLines s ++ [""]

/-- The lines about the run. -/
def overviewLines (view : View) : List String := [
  "# " ++ view.title,
  "",
  "- **Generated**: " ++ view.generatedAt,
  "- **Host**: " ++ view.hostName,
  "- **CPU**: " ++ view.cpuName ++ " (" ++ view.cpuCount ++ " cores)",
  "- **Benchmarks**: " ++ toString view.totalRecords,
  ""]

/-- All lines of the document. -/
def lines (view : View) : List String :=
  overviewLines view ++ view.sections.flatMap sectionLines
    ++ ["---", "", "*Source: " ++ view.sourceName ++ "*"]

/-- The document of a view. -/
def render (view : View) : String := String.join ((lines view).map (· ++ "\n"))

end TimingReport.Markdown
