import TimingReport.Binary64
import TimingReport.Path

/-!
# Benchmark records

A benchmark run is a list of records, each with a name and its timings in nanoseconds,
together with the machine they were taken on and the file they come from.
-/

namespace TimingReport

/-- Stands for a name that is absent. -/
def unknownName : String := "Unknown"

/-- Stands for a number that is absent. -/
def notAvailable : String := "N/A"

/-- One benchmark. Times are nanoseconds per iteration. -/
structure Record where
  name : String
  realTime : Binary64
  cpuTime : Binary64 := .zero false
  iterations : UInt64 := 0
  itemsPerSecond : Option Binary64 := none
deriving DecidableEq

/-- A record with the given name and real time; an empty name is unknown. -/
def Record.named (name : String) (realTime : Binary64) : Record :=
  { name := if name.isEmpty then unknownName else name, realTime }

/-- The machine that the benchmarks ran on. -/
structure Machine where
  hostName : String := unknownName
  cpuName : String := unknownName
  cpuCount : Option UInt32 := none
deriving DecidableEq

/-- The number of cores as text. -/
def Machine.cpuCountText (m : Machine) : String :=
  match m.cpuCount with
  | some count => toString count.toNat
  | none => notAvailable

/-- The unit that a benchmark's times are given in. -/
inductive TimeUnit where
  | nanoseconds
  | microseconds
  | milliseconds
  | seconds
deriving DecidableEq

namespace TimeUnit

/-- The unit of a symbol. -/
def ofSymbol? : String → Option TimeUnit
  | "ns" => some nanoseconds
  | "us" => some microseconds
  | "ms" => some milliseconds
  | "s" => some seconds
  | _ => none

/-- How many nanoseconds make the unit. -/
def nanos : TimeUnit → Nat
  | nanoseconds => 1
  | microseconds => 1_000
  | milliseconds => 1_000_000
  | seconds => 1_000_000_000

/-- The refusal of a symbol that names no unit. -/
def refusal (symbol : String) : String := s!"unknown time unit '{symbol}'"

end TimeUnit

/-- A loaded benchmark run: the records in input order, the machine and the source file. -/
structure Run where
  machine : Machine := {}
  records : List Record
  source : String
deriving DecidableEq

/-- The file name of the source. -/
def Run.sourceName (r : Run) : String := Path.displayName r.source

end TimingReport
