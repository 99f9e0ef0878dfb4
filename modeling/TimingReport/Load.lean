import TimingReport.FileFault
import TimingReport.Input
import TimingReport.Text.Blank

/-!
# Loading a run

An input document becomes a run: absent names and numbers get their defaults and times
are scaled to nanoseconds. Loading succeeds as a whole or fails with its first fault.
-/

namespace TimingReport

/-- A timing of an entry. -/
inductive TimingField where
  | realTime
  | cpuTime
deriving DecidableEq

/-- The name of a timing in the document. -/
def TimingField.name : TimingField → String
  | realTime => "real_time"
  | cpuTime => "cpu_time"

/-- Why an entry cannot be reported. -/
inductive EntryFault where
  | unknownUnit (symbol : String)
  | notFinite (field : TimingField)
  | negative (field : TimingField) (value : Binary64)

/-- The wording of an entry's fault. -/
def EntryFault.message : EntryFault → String
  | unknownUnit symbol => TimeUnit.refusal symbol
  | notFinite field => field.name ++ " is not a finite number"
  | negative field value => field.name ++ " is negative (" ++ Decimal.plain value ++ ")"

/-- Why a run cannot be loaded. -/
inductive LoadFault where
  | notFound (path : String)
  | unreadable (path : String) (cause : FileFault)
  | malformed (path : String) (cause : Json.Fault)
  | invalidEntry (index : Nat) (name : String) (reason : EntryFault)

/-- The wording of a load fault. -/
def LoadFault.message : LoadFault → String
  | notFound path => "input file not found: " ++ path
  | unreadable path cause => "failed to read " ++ path ++ ": " ++ cause.message
  | malformed path cause => "malformed benchmark data in " ++ path ++ ": " ++ cause.message
  | invalidEntry index name reason =>
      "invalid benchmark #" ++ toString index ++ " (" ++ name ++ "): " ++ reason.message

/-- The faults behind a load fault, outermost first. -/
def LoadFault.causes : LoadFault → List String
  | notFound _ => []
  | unreadable _ cause => [cause.message]
  | malformed _ cause => [cause.message]
  | invalidEntry _ _ _ => []

namespace Load

/-- A name that is given and not blank. -/
def nameOr (name : Option String) : String :=
  match name with
  | some name => if Text.isBlankText name then unknownName else name
  | none => unknownName

/-- The machine that a document describes. A count given with the processor comes first. -/
def machine (context : Option Input.Context) : Machine :=
  let context := context.getD {}
  let cpu := context.cpu.getD {}
  { hostName := nameOr context.hostName
    cpuName := nameOr cpu.name
    cpuCount := cpu.count.or context.cpuCount }

/-- The unit of an entry's times. -/
def unitOf (entry : Input.Entry) : Except EntryFault TimeUnit :=
  match entry.timeUnit with
  | none => .ok .nanoseconds
  | some symbol =>
      match TimeUnit.ofSymbol? symbol with
      | some unit => .ok unit
      | none => .error (.unknownUnit symbol)

/-- A timing in nanoseconds; an absent one is zero. -/
def scale (unit : TimeUnit) (time : Option Binary64) : Binary64 :=
  time.getD (.zero false) * .ofNat unit.nanos

/-- A timing must be finite and not below zero. -/
def checkTiming (field : TimingField) (time : Binary64) : Except EntryFault Unit :=
  if !time.isFinite then .error (.notFinite field)
  else if time.lt (.zero false) then .error (.negative field time)
  else .ok ()

/-- The record of an entry. The unit is checked first, then the real time, then the CPU time. -/
def record (entry : Input.Entry) : Except EntryFault Record := do
  let unit ← unitOf entry
  let realTime := scale unit entry.realTime
  let cpuTime := scale unit entry.cpuTime
  checkTiming .realTime realTime
  checkTiming .cpuTime cpuTime
  return {
    name := nameOr entry.name
    realTime
    cpuTime
    iterations := entry.iterations.getD 0
    itemsPerSecond := entry.itemsPerSecond }

/-- The records of entries, of which the first has the given index, or the first fault. -/
def records (index : Nat) : List Input.Entry → Except LoadFault (List Record)
  | [] => .ok []
  | entry :: rest =>
      match record entry with
      | .error reason => .error (.invalidEntry index (nameOr entry.name) reason)
      | .ok r => (records (index + 1) rest).map (r :: ·)

/-- The run of a document. -/
def run (source : String) (document : Input.Document) : Except LoadFault Run :=
  (records 0 document.benchmarks).map fun records =>
    { machine := machine document.context, records, source }

/-- The run that symbols from the given source describe. -/
def ofSymbols [Json.Medium] (source : String) (s : Json.Symbols) : Except LoadFault Run :=
  match Input.Document.ofSymbols s with
  | .error fault => .error (.malformed source fault)
  | .ok document => run source document

/-- The run that a text describes. Its symbols are its characters, which need no check. -/
def ofText (source text : String) : Except LoadFault Run :=
  ofSymbols source (text.toList.map some)

/-- The run that bytes describe, read one byte after the other. -/
def ofBytes (source : String) (bytes : List UInt8) : Except LoadFault Run :=
  @ofSymbols .bytes source (bytes.map Json.ofByte)

/-- The run that a reader describes, given by all its bytes or by the fault that it ends in. -/
def ofReader (source : String) (content : Except FileFault (List UInt8)) :
    Except LoadFault Run :=
  match content with
  | .error cause => .error (.unreadable source cause)
  | .ok bytes => ofBytes source bytes

end Load

end TimingReport
