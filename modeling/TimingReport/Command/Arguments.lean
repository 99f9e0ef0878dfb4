import TimingReport.Command.Options
import TimingReport.Console.Banner

/-!
# The command line

Options have long names, and all but the title a letter. A value stands behind its option,
or is attached to it. A value that stands apart is looked at when the next option comes, so
an argument that is no option at all is refused before it.
-/

namespace TimingReport.Command

/-- The options that take a value. -/
inductive Valued where
  | input
  | output
  | format
  | config
  | title
deriving DecidableEq

/-- The options that take none. -/
inductive Switch where
  | quiet
  | help
  | version
deriving DecidableEq

/-- An option. -/
inductive Name where
  | valued (name : Valued)
  | switch (name : Switch)
deriving DecidableEq

namespace Name

/-- All options. -/
def all : List Name := [
  valued .input, valued .output, valued .format, valued .config, valued .title,
  switch .quiet, switch .help, switch .version]

/-- The long name of an option. -/
def long : Name → String
  | valued .input => "input"
  | valued .output => "output"
  | valued .format => "format"
  | valued .config => "config"
  | valued .title => "title"
  | switch .quiet => "quiet"
  | switch .help => "help"
  | switch .version => "version"

/-- The letter of an option. -/
def letter? : Name → Option Char
  | valued .input => some 'i'
  | valued .output => some 'o'
  | valued .format => some 'f'
  | valued .config => some 'c'
  | valued .title => none
  | switch .quiet => some 'q'
  | switch .help => some 'h'
  | switch .version => some 'V'

/-- The option of a long name. -/
def ofLong? (name : List Char) : Option Name := all.find? fun n => n.long.toList == name

/-- The option of a letter. -/
def ofLetter? (c : Char) : Option Name := all.find? fun n => n.letter? == some c

/-- An option as messages show it. -/
def shown : Name → String
  | valued name =>
      let long := (valued name).long
      "--" ++ long ++ " <" ++ String.ofList (long.toList.map Char.toUpper) ++ ">"
  | switch name => "--" ++ (switch name).long

end Name

/-- Why a command line is not carried out. -/
inductive Refusal where
  | helpWanted
  | versionWanted
  | unknownArgument (argument : String)
  | missingValue (name : Valued)
  | unwantedValue (name : Switch) (value : String)
  | repeated (name : Name)
  /-- A value that names no format, with its word in lower case. -/
  | badFormat (value word : String)
deriving DecidableEq

/-! ## Reading -/

/-- What was read of a command line. -/
structure Reading where
  options : Options := {}
  /-- The options that are set. -/
  seen : List Name := []
  /-- An option whose value stands apart, and the value once it was read. -/
  pending : Option (Valued × Option String) := none
  /-- Only operands may follow. -/
  isOver : Bool := false

namespace Reading

/-- The file name of a value, which must not be empty. -/
def pathOf (name : Valued) (value : String) : Except Refusal String :=
  if value.isEmpty then .error (.missingValue name) else .ok value

/-- The options with a value. -/
def assign (options : Options) (name : Valued) (value : String) : Except Refusal Options :=
  match name with
  | .input => (pathOf name value).map fun path => { options with input := some path }
  | .output => (pathOf name value).map fun path => { options with output := some path }
  | .config => (pathOf name value).map fun path => { options with config := some path }
  | .title => .ok { options with title := some value }
  | .format =>
      match Format.ofText value with
      | .ok format => .ok { options with format := some format }
      | .error word => .error (.badFormat value word)

/-- The reading with an option set to a value. No option may be set twice. -/
def setValue (r : Reading) (name : Valued) (value : String) : Except Refusal Reading :=
  if r.seen.contains (.valued name) then .error (.repeated (.valued name))
  else
    (assign r.options name value).map fun options =>
      { r with options, seen := .valued name :: r.seen }

/-- The reading after the pending value was looked at. -/
def settle (r : Reading) : Except Refusal Reading :=
  match r.pending with
  | none => .ok r
  | some (name, none) => .error (.missingValue name)
  | some (name, some value) => { r with pending := none }.setValue name value

/-- The reading after an option with an attached value, or one whose value stands apart. -/
def takeValued (r : Reading) (name : Valued) (value? : Option String) : Except Refusal Reading := do
  let r ← r.settle
  match value? with
  | some value => r.setValue name value
  | none => return { r with pending := some (name, none) }

/-- The reading after an option without a value. -/
def takeSwitch (r : Reading) (name : Switch) : Except Refusal Reading := do
  let r ← r.settle
  match name with
  | .help => .error .helpWanted
  | .version => .error .versionWanted
  | .quiet =>
      if r.seen.contains (.switch .quiet) then .error (.repeated (.switch .quiet))
      else
        return { r with
          options := { r.options with quiet := true }, seen := .switch .quiet :: r.seen }

/-- The reading after an argument with a long name. -/
def takeLong (r : Reading) (argument : List Char) : Except Refusal Reading :=
  let name := argument.takeWhile (· ≠ '=')
  let value? := match argument.dropWhile (· ≠ '=') with
    | _ :: value => some (String.ofList value)
    | [] => none
  match Name.ofLong? name, value? with
  | some (.valued name), value? => r.takeValued name value?
  | some (.switch name), none => r.takeSwitch name
  | some (.switch name), some value => .error (.unwantedValue name value)
  | none, _ => .error (.unknownArgument ("--" ++ String.ofList name))

/-- The reading after an argument of letters. Whatever is behind the letter of an option that
takes a value is the value. -/
def takeLetters (r : Reading) : List Char → Except Refusal Reading
  | [] => .ok r
  | c :: rest =>
      match Name.ofLetter? c with
      | some (.switch name) => do takeLetters (← r.takeSwitch name) rest
      | some (.valued name) =>
          match rest with
          | [] => r.takeValued name none
          | '=' :: value => r.takeValued name (some (String.ofList value))
          | value => r.takeValued name (some (String.ofList value))
      | none => .error (.unknownArgument (String.ofList ['-', c]))

/-- The reading after an operand, which is only wanted as a value. -/
def takeOperand (r : Reading) (argument : String) : Except Refusal Reading :=
  match r.pending with
  | some (name, none) => .ok { r with pending := some (name, some argument) }
  | _ => .error (.unknownArgument argument)

/-- The reading after an argument. -/
def take (r : Reading) (argument : String) : Except Refusal Reading :=
  if r.isOver then .error (.unknownArgument argument)
  else
    match argument.toList with
    | ['-', '-'] => .ok { r with isOver := true }
    | '-' :: '-' :: rest => r.takeLong rest
    | '-' :: c :: rest => r.takeLetters (c :: rest)
    | _ => r.takeOperand argument

end Reading

/-- The options that arguments state. -/
def Options.ofArguments (arguments : List String) : Except Refusal Options := do
  let r ← arguments.foldlM Reading.take {}
  return (← r.settle).options

/-! ## Answers -/

/-- The name of the program. -/
def programName : String := "benchreport"

/-- How the program is called. -/
def usage : String := "Usage: " ++ programName ++ " [OPTIONS]\n"

/-- What the program is for and which options it has. -/
def help : String :=
  "Generate a report from Google Benchmark JSON results\n\n" ++ usage ++ "\nOptions:\n"
    ++ "  -i, --input <INPUT>    Benchmark results JSON file [default: benchmark_results.json]\n"
    ++ "  -o, --output <OUTPUT>  Report file to write [default: performance_report.<format extension>]\n"
    ++ "  -f, --format <FORMAT>  Report format: html, markdown or csv [default: html]\n"
    ++ "  -c, --config <CONFIG>  Configuration file (.toml, .yaml or .yml)\n"
    ++ "      --title <TITLE>    Report title\n"
    ++ "  -q, --quiet            Suppress the banner and progress output\n"
    ++ "  -h, --help             Print help\n"
    ++ "  -V, --version          Print version\n"

namespace Refusal

/-- A complaint about the arguments, with the usage or without. -/
def complaint (text : String) (withUsage : Bool) : String :=
  "error: " ++ text ++ "\n\n" ++ (if withUsage then usage ++ "\n" else "")
    ++ "For more information, try '--help'.\n"

/-- What is printed instead of carrying out the command line. -/
def text : Refusal → String
  | helpWanted => help
  | versionWanted => programName ++ " " ++ Console.version ++ "\n"
  | unknownArgument argument => complaint ("unexpected argument '" ++ argument ++ "' found") true
  | missingValue name =>
      complaint
        ("a value is required for '" ++ (Name.valued name).shown ++ "' but none was supplied") false
  | unwantedValue name value =>
      complaint
        ("unexpected value '" ++ value ++ "' for '" ++ (Name.switch name).shown
          ++ "' found; no more were expected") true
  | repeated name =>
      complaint ("the argument '" ++ name.shown ++ "' cannot be used multiple times") true
  | badFormat value word =>
      complaint
        ("invalid value '" ++ value ++ "' for '" ++ (Name.valued .format).shown ++ "': "
          ++ Format.refusal word) false

/-- The refusal was asked for, so it is no failure. -/
def isWanted : Refusal → Bool
  | helpWanted => true
  | versionWanted => true
  | _ => false

/-- The exit code of a refusal. -/
def exitCode (refusal : Refusal) : UInt32 := if refusal.isWanted then 0 else 2

end Refusal

end TimingReport.Command
