import TimingReport.Amount
import TimingReport.Console.Event
import TimingReport.Console.Level
import TimingReport.Format
import TimingReport.Text.Quoted

/-!
# The progress of a report

A report is loaded, rendered and written. Each stage ends with a step of progress, which the
console shows if its level of detail is wanted.
-/

namespace TimingReport

/-- A step on the way to a report. -/
inductive Progress where
  | loaded (source : String) (records : Nat)
  /-- One of the categories of the report. -/
  | summarized (category : Category) (count : Nat) (mean : Binary64)
  | rendered (format : Format) (sections bytes : Nat)
  | written (path : String) (bytes : Nat)
deriving DecidableEq

namespace Progress

/-- The level of detail of a step. -/
def level : Progress → Console.Level
  | summarized _ _ _ => .debug
  | _ => .info

/-- The part of the program that a step comes from. -/
def origin : Progress → String
  | loaded _ _ => "benchreport::loader"
  | summarized _ _ _ => "benchreport::job"
  | rendered _ _ _ => "benchreport::job"
  | written _ _ => "benchreport::writer"

/-- A step as an event of the console. Texts other than the label of a category are recorded
without the quotes at their ends. -/
def event : Progress → Console.Event
  | loaded source records => {
      kind := some Console.Kind.loaded.word
      source := some (Text.trimQuotes source)
      records := some (UInt64.ofNat records) }
  | summarized category count mean => {
      kind := some Console.Kind.category.word
      category := some category.label
      count := some (UInt64.ofNat count)
      mean := some (Text.trimQuotes (durationText mean)) }
  | rendered format sections bytes => {
      kind := some Console.Kind.rendered.word
      format := some (Text.trimQuotes format.name)
      sections := some (UInt64.ofNat sections)
      bytes := some (UInt64.ofNat bytes) }
  | written path bytes => {
      kind := some Console.Kind.written.word
      path := some (Text.trimQuotes path)
      size := some (Text.trimQuotes (sizeText (.ofNat bytes))) }

/-- The names of what is recorded about a step. -/
def fields : Progress → List String
  | loaded _ _ => ["event", "source", "records"]
  | summarized _ _ _ => ["event", "category", "count", "mean"]
  | rendered _ _ _ => ["event", "format", "sections", "bytes"]
  | written _ _ => ["event", "path", "size"]

/-- The line of a step that took so many milliseconds. -/
def line? (elapsed : Nat) (step : Progress) : Option String := step.event.line? elapsed

/-- The lines of steps, with nothing but the steps that a threshold lets through. -/
def lines (threshold : Console.Threshold) (steps : List Progress) : List String :=
  (steps.filter fun step => threshold.admits step.level).filterMap (line? 0)

end Progress

end TimingReport
