import TimingReport.Job
import TimingReport.Settings.Load

/-!
# Options of the command

What the command line says goes before what a file of settings says, and that goes before
what holds when nothing is said.
-/

namespace TimingReport.Command

/-- What a command line says. -/
structure Options where
  input : Option String := none
  output : Option String := none
  format : Option Format := none
  /-- The file of settings. -/
  config : Option String := none
  title : Option String := none
  /-- Nothing is printed about the progress. -/
  quiet : Bool := false
deriving DecidableEq

namespace Options

/-- The output when none is named: its ending tells the format. -/
def outputFor (format : Format) : String := "performance_report." ++ format.extension

/-- The job that options and settings ask for. -/
def resolve (options : Options) (settings : Settings) : Except SettingsFault Job := do
  let table ← settings.usableTable
  let format := (options.format.or settings.format).getD .html
  return {
    input := (options.input.or settings.input).getD Job.standardInput
    output := (options.output.or settings.output).getD (outputFor format)
    format
    title := (options.title.or settings.title).getD View.standardTitle
    table }

variable {m : Type → Type} [Monad m]

/-- The settings of a file. -/
def loadSettings (host : Host m) (language : Settings.Language) (path : String) :
    m (Except SettingsFault Settings) := do
  match ← host.read path with
  | .error cause => return .error (.unreadable cause)
  | .ok bytes => return Settings.ofBytes language bytes

/-- The job that options ask for, with the settings of the file that they name. -/
def job (host : Host m) (options : Options) : m (Except SettingsFault Job) := do
  match options.config with
  | none => return options.resolve {}
  | some path =>
      match ← loadSettings host (.ofPath path) path with
      | .error fault => return .error fault
      | .ok settings => return options.resolve settings

end Options

end TimingReport.Command
