import TimingReport.Command.Arguments
import TimingReport.Command.Run
import TimingReport.Console.Filter
import TimingReport.Session

/-!
# Transcripts of the command

All that a command line does to a store and all that it prints.
-/

namespace TimingReport.Command

/-- What surrounds a command. -/
structure Surroundings where
  store : Store
  /-- The path of the working directory. -/
  directory : String
  now : Timestamp
  /-- The filter of messages, as a text. -/
  filter : String := ""

/-- What a command did. -/
structure Transcript where
  exitCode : UInt32
  out : String
  err : String
  store : Store

/-- Lines as text. -/
def linesText (lines : List String) : String := String.join (lines.map (· ++ "\n"))

/-- The filter lets a step of progress through. -/
def admits (filter : Console.Filter) (step : Progress) : Bool :=
  filter.admits step.origin step.fields step.level

/-- What the command does with its options. -/
def perform (options : Options) (s : Surroundings) : Transcript :=
  let outcome := Outcome.of (run Session.host options s.directory s.now) s.store
  let verdict := outcome.result
  let (filter, complaints) := Console.Filter.ofText s.filter
  let progress := (outcome.steps.filter (admits filter)).filterMap (Progress.line? 0)
  { exitCode := verdict.exitCode
    out :=
      if options.quiet then linesText verdict.out
      else Console.banner ++ linesText (progress ++ verdict.out)
    err := linesText (if options.quiet then verdict.err else complaints ++ verdict.err)
    store := outcome.store }

end TimingReport.Command
