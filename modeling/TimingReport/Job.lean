import TimingReport.Load
import TimingReport.Progress

/-!
# Jobs

A job makes one report: it loads a run, renders it and writes the document. It works on a
host, which gives it files and hears of its progress, so the same job runs on the files of a
machine and on a modelled store.
-/

namespace TimingReport

/-- What a job works on. -/
structure Host (m : Type → Type) where
  /-- The bytes of a file. -/
  read : String → m (Except FileFault (List UInt8))
  /-- Puts bytes into a file, as a whole or not at all. -/
  write : String → List UInt8 → m (Except FileFault Unit)
  /-- Hears of a step of progress. -/
  note : Progress → m Unit

/-- Why no report is made. -/
inductive JobFault where
  | load (fault : LoadFault)
  | write (path : String) (cause : FileFault)

namespace JobFault

/-- The wording of a fault. -/
def message : JobFault → String
  | load fault => fault.message
  | write path cause => "failed to write report to " ++ path ++ ": " ++ cause.message

/-- The faults behind a fault, outermost first. -/
def causes : JobFault → List String
  | load fault => fault.causes
  | write _ cause => [cause.message]

end JobFault

/-- One report to make. -/
structure Job where
  input : String
  output : String
  format : Format := .html
  title : String := View.standardTitle
  table : RuleTable := .standard
deriving DecidableEq

namespace Job

/-- The file that a job reads when none is named. -/
def standardInput : String := "benchmark_results.json"

/-- The file that a job writes when neither it nor a format is named. -/
def standardOutput : String := "performance_report.html"

/-- The job for which nothing is said. -/
def standard : Job := { input := standardInput, output := standardOutput }

/-! ## Rendering -/

/-- The view of a run that the job shows. -/
def view (job : Job) (run : Run) (now : Timestamp) : View :=
  View.ofRun run job.table job.title now

/-- The document of a run. -/
def document (job : Job) (run : Run) (now : Timestamp) : String :=
  job.format.render (job.view run now)

/-- The step that tells of a section. -/
def sectionStep (s : Section) : Progress :=
  .summarized s.category s.summary.timings.count s.summary.timings.mean

/-- The steps of rendering: the sections, and then the document with its size in bytes. -/
def renderSteps (job : Job) (run : Run) (now : Timestamp) : List Progress :=
  let sections := (job.view run now).sections
  sections.map sectionStep
    ++ [.rendered job.format sections.length (job.document run now).utf8ByteSize]

/-! ## Running -/

variable {m : Type → Type} [Monad m]

/-- The run of a file. -/
def load (host : Host m) (path : String) : m (Except LoadFault Run) := do
  match ← host.read path with
  | .error .missing => return .error (.notFound path)
  | content =>
      match Load.ofReader path content with
      | .error fault => return .error fault
      | .ok run =>
          host.note (.loaded path run.records.length)
          return .ok run

/-- Writes a document. -/
def writeDocument (host : Host m) (path document : String) : m (Except JobFault Unit) := do
  match ← host.write path (Text.Utf8.encode document) with
  | .error cause => return .error (.write path cause)
  | .ok () =>
      host.note (.written path document.utf8ByteSize)
      return .ok ()

/-- Loads the input, renders it and writes the output. Nothing is written if loading fails. -/
def run (host : Host m) (job : Job) (now : Timestamp) : m (Except JobFault Unit) := do
  match ← load host job.input with
  | .error fault => return .error (.load fault)
  | .ok run =>
      (job.renderSteps run now).forM host.note
      writeDocument host job.output (job.document run now)

end Job

end TimingReport
