import TimingReport.Amount
import TimingReport.Timestamp
import TimingReport.Timings

/-!
# The view of a report

A view holds every text that a document shows, without regard to the document's format.
It has a section for each category with records, in report order, and each section
lists its records in ascending order of real time.
-/

namespace TimingReport

/-- One row of a section's table. -/
structure Row where
  record : Record
  realTime : String
  severity : Severity
  cpuTime : String
  iterations : String
  throughput : String

/-- The row of a record. -/
def Row.ofRecord (record : Record) : Row where
  record := record
  realTime := durationText record.realTime
  severity := .ofTime record.realTime
  cpuTime := durationText record.cpuTime
  iterations := countText record.iterations.toNat
  throughput := throughputText record.itemsPerSecond

/-- The part of a report about one category. -/
structure Section where
  summary : Summary
  count : String
  average : String
  median : String
  fastest : String
  slowest : String
  rows : List Row

/-- The section of a summary. -/
def Section.ofSummary (summary : Summary) : Section where
  summary := summary
  count := toString summary.timings.count
  average := durationText summary.timings.mean
  median := durationText summary.timings.median
  fastest := durationText summary.timings.least
  slowest := durationText summary.timings.greatest
  rows := (Summary.byTime summary.members).map Row.ofRecord

def Section.category (s : Section) : Category := s.summary.category

/-- All texts of a report. -/
structure View where
  title : String
  generatedAt : String
  hostName : String
  cpuName : String
  cpuCount : String
  totalRecords : Nat
  sourceName : String
  sections : List Section

namespace View

/-- The title of a report for which none is set. -/
def standardTitle : String := "Performance Benchmark Report"

/-- The section of a category, if any record belongs to it. -/
def sectionOf? (classification : Classification) (category : Category) : Option Section :=
  (Summary.ofRecords? category (classification.members category)).map Section.ofSummary

/-- The view of a run. -/
def ofRun (run : Run) (table : RuleTable) (title : String) (generatedAt : Timestamp) : View where
  title := title
  generatedAt := generatedAt.text
  hostName := run.machine.hostName
  cpuName := run.machine.cpuName
  cpuCount := run.machine.cpuCountText
  totalRecords := run.records.length
  sourceName := run.sourceName
  sections := Category.all.filterMap (sectionOf? (.ofRecords table run.records))

/-- The view's section of a category. -/
def sectionFor? (view : View) (category : Category) : Option Section :=
  view.sections.find? (·.category = category)

end View

end TimingReport
