import TimingReport.Markup
import TimingReport.Style
import TimingReport.View

/-!
# The HTML page

A report as one HTML page that needs no other file: the title, an overview of the run,
one part for each section with its summary and table, and the name of the source file.
-/

namespace TimingReport.Page

open Markup

/-- A label above a text of the overview. -/
def infoBox (label : String) (content : List Token) : List Token :=
  block 4 "div" (ofClass "info-box") (
    line 5 (element "strong" [] [.text label] ++ [.void "br" []])
      ++ line 5 content)

/-- When and where the benchmarks were run, and how many there are. -/
def overview (view : View) : List Token :=
  block 2 "div" (ofClass "overview") (
    line 3 (element "h2" [] [.text "Overview"])
      ++ block 3 "div" (ofClass "info-grid") (
        infoBox "Generated" [.text view.generatedAt]
          ++ infoBox "Host" [.text view.hostName]
          ++ infoBox "CPU" [.text view.cpuName, .text " (", .text view.cpuCount, .text " cores)"]
          ++ infoBox "Benchmarks" [.verbatim (toString view.totalRecords), .text " benchmarks"]))

/-- A figure of a section above its label. -/
def summaryItem (value label : String) : List Token :=
  block 4 "div" (ofClass "summary-item") (
    line 5 (element "strong" [] [.verbatim value]) ++ line 5 [.text label])

/-- The headings of a section's table. -/
def headings : List String := ["Benchmark", "Real Time", "CPU Time", "Iterations", "Throughput"]

/-- A cell of a table, on a line of its own. -/
def cell (attributes : List (String × String)) (content : Token) : List Token :=
  line 6 (element "td" attributes [content])

/-- The table row of a benchmark. -/
def tableRow (row : Row) : List Token :=
  block 5 "tr" [] (
    cell (ofClass "benchmark-name") (.text row.record.name)
      ++ cell (ofClass ("time-cell " ++ row.severity.word)) (.verbatim row.realTime)
      ++ cell (ofClass "time-cell") (.verbatim row.cpuTime)
      ++ cell [] (.verbatim row.iterations)
      ++ cell [] (.verbatim row.throughput))

/-- The part of the page about one category. -/
def sectionPart (s : Section) : List Token :=
  block 2 "div" (ofClass "category-section") (
    line 3 (element "h2" [] [.verbatim (s.category.label ++ " Benchmarks")])
      ++ block 3 "div" (ofClass "summary-grid") (
        summaryItem s.count "Benchmarks"
          ++ summaryItem s.average "Average Time"
          ++ summaryItem s.fastest "Fastest"
          ++ summaryItem s.slowest "Slowest")
      ++ block 3 "table" [] (
        block 4 "thead" [] (
          block 5 "tr" [] (headings.flatMap fun heading =>
            line 6 (element "th" [] [.text heading])))
          ++ block 4 "tbody" [] (s.rows.flatMap tableRow)))

/-- The name of the source file. -/
def footer (view : View) : List Token :=
  block 2 "div" (ofClass "footer") (
    line 3 (element "p" [] [.text "Generated by benchreport"])
      ++ line 3 (element "p" [] [.text "Source: ", .text view.sourceName]))

/-- What the page says about itself. -/
def head (view : View) : List Token :=
  block 0 "head" [] (
    line 1 [.void "meta" [("charset", "UTF-8")]]
      ++ line 1 [.void "meta" [("name", "viewport"),
        ("content", "width=device-width, initial-scale=1.0")]]
      ++ line 1 (element "title" [] [.text view.title])
      ++ line 1 (element "style" [] [.verbatim Style.sheet, .verbatim "    "]))

/-- What the page shows. -/
def body (view : View) : List Token :=
  block 0 "body" [] (
    block 1 "div" (ofClass "container") (
      line 2 (element "h1" [] [.text view.title])
        ++ overview view
        ++ view.sections.flatMap sectionPart
        ++ footer view))

/-- The tokens of the page. -/
def tokens (view : View) : List Token :=
  line 0 [.doctype] ++ block 0 "html" [("lang", "en")] (head view ++ body view)

/-- The page of a view. -/
def render (view : View) : String := Markup.render (tokens view)

end TimingReport.Page
