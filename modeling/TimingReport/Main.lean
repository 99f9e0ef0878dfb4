import Std.Time.Zoned
import TimingReport.Command.Transcript

/-!
# The program

The outer layer of the command: it reads and writes files, prints lines and tells the time.
What is printed, which files are written and with which exit code the program ends is
decided by the modules that it calls.
-/

namespace TimingReport.Machine

/-- The fault behind an error of the system. -/
def faultOf : IO.Error → FileFault
  | .noFileOrDirectory .. => .missing
  | .resourceBusy .. => .busy
  | .inappropriateType _ 20 _ => .noDirectory
  | .inappropriateType _ 21 _ => .isDirectory
  | .invalidArgument _ 36 _ => .nameTooLong
  | .permissionDenied _ number words => .system (FileFault.numbered words number.toNat)
  | .resourceExhausted _ number words => .system (FileFault.numbered words number.toNat)
  | error => .system (toString error)

/-- The outcome of an action on the file of a path. -/
def attempt {α : Type} (path : String) (action : IO α) : IO (Except FileFault α) := do
  match Store.checkPath path with
  | .error fault => return .error fault
  | .ok () =>
      try return .ok (← action)
      catch error => return .error (faultOf error)

/-- Permissions as the library takes them. -/
def rightsOf (mode : Mode) : IO.FileRight :=
  let rights (digit : Mode) : IO.AccessRight :=
    { read := digit &&& 4 ≠ 0, write := digit &&& 2 ≠ 0, execution := digit &&& 1 ≠ 0 }
  { user := rights (mode >>> 6), group := rights (mode >>> 3), other := rights mode }

/-- The permissions that no new file gets, as the system tells them of the process. -/
def umask : IO Mode := do
  let named := "Umask:\t"
  try
    let lines := (← IO.FS.readFile "/proc/self/status").splitOn "\n"
    let digits := ((lines.find? (·.startsWith named)).getD "").toList.drop named.length
    return digits.foldl (fun mode digit => mode * 8 + (digit.toNat - '0'.toNat).toUInt32) 0
  catch _ => return 0o022

/-- Writes a new file beside a path and moves it there. The library neither tells the
permissions of a file nor brings it to the disk, so a file that is replaced gets the
permissions of a new one, and the last step before the move is to hand all bytes to the
system. -/
def replaceFile (path : String) (bytes : ByteArray) : IO Unit := do
  let draft := Store.parentPath path ++ "/.tmp" ++ toString (← IO.monoNanosNow)
  let handle ← IO.FS.Handle.mk draft .writeNew
  try
    IO.setAccessRights draft (rightsOf (0o644 &&& ~~~(← umask)))
    handle.write bytes
    handle.flush
    IO.FS.rename draft path
  catch error =>
    IO.FS.removeFile draft
    throw error

/-- The files of the machine, for a listener to the steps of progress. -/
def host (note : Progress → IO Unit) : Host IO where
  read path := attempt path do return (← (← IO.FS.Handle.mk path .read).readBinToEnd).toList
  write path bytes := attempt path (replaceFile path ⟨bytes.toArray⟩)
  note

/-- The local time. -/
def now : IO Timestamp := do
  let moment ← Std.Time.PlainDateTime.now
  return {
    year := moment.year.toInt
    month := moment.month.toNat
    day := moment.day.toNat
    hour := moment.hour.toNat
    minute := moment.minute.toNat
    second := moment.second.toNat
    nanosecond := moment.nanosecond.toNat }

/-- The variable of the environment that holds the filter of messages. -/
def filterVariable : String := "RUST_LOG"

/-- Prints the line of a step if the filter lets it through. -/
def printStep (filter : Console.Filter) (start : Nat) (step : Progress) : IO Unit := do
  if Command.admits filter step then
    (step.line? ((← IO.monoMsNow) - start)).forM IO.println

/-- What hears of the steps of progress. Unless nothing is to be printed, the banner comes
first. -/
def listener (quiet : Bool) : IO (Progress → IO Unit) := do
  if quiet then return fun _ => pure ()
  else
    let (filter, complaints) := Console.Filter.ofText ((← IO.getEnv filterVariable).getD "")
    complaints.forM IO.eprintln
    IO.print Console.banner
    return printStep filter (← IO.monoMsNow)

/-- Carries options out. -/
def perform (options : Command.Options) : IO UInt32 := do
  let note ← listener options.quiet
  let verdict ← Command.run (host note) options (← IO.currentDir).toString (← now)
  verdict.out.forM IO.println
  verdict.err.forM IO.eprintln
  return verdict.exitCode

/-- Says why a command line is not carried out. -/
def refuse (refusal : Command.Refusal) : IO UInt32 := do
  if refusal.isWanted then IO.print refusal.text else IO.eprint refusal.text
  return refusal.exitCode

end TimingReport.Machine

/-- Makes the report that the arguments ask for. -/
def main (arguments : List String) : IO UInt32 :=
  match TimingReport.Command.Options.ofArguments arguments with
  | .error refusal => TimingReport.Machine.refuse refusal
  | .ok options => TimingReport.Machine.perform options
