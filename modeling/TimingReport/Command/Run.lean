import TimingReport.Command.Options
import TimingReport.Console.Paint

/-!
# Running the command

The command resolves its options into a job and runs it. What it says at the end depends on
nothing but the job and how it ended.
-/

namespace TimingReport.Command

/-- How a command ends. -/
structure Verdict where
  succeeded : Bool
  /-- Lines for the standard output. -/
  out : List String := []
  /-- Lines for the standard error. -/
  err : List String := []
deriving DecidableEq

namespace Verdict

/-- The exit code of a verdict. -/
def exitCode (v : Verdict) : UInt32 := if v.succeeded then 0 else 1

/-- Starts the line of a success. -/
def tick : String := Console.paintBold .green "✔"

/-- Starts the line of a failure. -/
def cross : String := Console.paintBold .red "✘"

/-- A failure with what stands behind it. -/
def failure (context message : String) (causes : List String) : Verdict where
  succeeded := false
  err := (cross ++ " " ++ context ++ ": " ++ message) :: causes.map ("  caused by: " ++ ·)

/-- The verdict on settings that cannot be used. -/
def ofSettingsFault (fault : SettingsFault) : Verdict :=
  failure "Invalid configuration" fault.message fault.causes

/-- The verdict on a job that ended, for a process that works in `directory`. -/
def ofJob (directory : String) (job : Job) : Except JobFault Unit → Verdict
  | .ok () => {
      succeeded := true
      out := (tick ++ " Report written to " ++ job.output) ::
        if job.format = .html then
          ["  Open in a browser: file://" ++ Path.absolute directory job.output]
        else [] }
  | .error (.load (.notFound path)) => {
      succeeded := false
      err := [
        cross ++ " Input file not found: " ++ path,
        "  Run the benchmarks with JSON output first to produce it."] }
  | .error fault => failure "Report generation failed" fault.message fault.causes

end Verdict

/-- Makes the report that options ask for. -/
def run {m : Type → Type} [Monad m] (host : Host m) (options : Options) (directory : String)
    (now : Timestamp) : m Verdict := do
  match ← options.job host with
  | .error fault => return .ofSettingsFault fault
  | .ok job => return .ofJob directory job (← job.run host now)

end TimingReport.Command
