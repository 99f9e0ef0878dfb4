import TimingReport.Json.Shape
import TimingReport.Record

/-!
# The input document

The results of a benchmark run as they are written in JSON, where almost everything may
be absent.
-/

namespace TimingReport.Input

/-- What is written about the processor. -/
structure Cpu where
  name : Option String := none
  count : Option UInt32 := none

/-- What is written about the machine. -/
structure Context where
  hostName : Option String := none
  cpu : Option Cpu := none
  cpuCount : Option UInt32 := none

/-- What is written about one benchmark. -/
structure Entry where
  name : Option String := none
  realTime : Option Binary64 := none
  cpuTime : Option Binary64 := none
  iterations : Option UInt64 := none
  itemsPerSecond : Option Binary64 := none
  timeUnit : Option String := none

/-- A whole document. -/
structure Document where
  context : Option Context := none
  benchmarks : List Entry

/-! ## Readers -/

variable [Json.Medium]

/-- A count of 32 bits. -/
def count32 : Json.Reader UInt32 := fun s =>
  (Json.natural 32 s).map fun (n, rest) => (UInt32.ofNat n, rest)

/-- A count of 64 bits. -/
def count64 : Json.Reader UInt64 := fun s =>
  (Json.natural 64 s).map fun (n, rest) => (UInt64.ofNat n, rest)

/-- A record whose form does not matter. -/
def record {σ : Type} (wanted : String) (fields : List (Json.Field σ)) (empty : σ) :
    Json.Reader σ := fun s =>
  (Json.record wanted fields empty s).map fun ((r, _), rest) => (r, rest)

def Cpu.fields : List (Json.Field Cpu) := [
  .ofOptional "name" Json.text fun r a => { r with name := a },
  .ofOptional "num_cpus" count32 fun r a => { r with count := a }]

def Cpu.read : Json.Reader Cpu := record "struct RawCpuInfo" Cpu.fields {}

def Context.fields : List (Json.Field Context) := [
  .ofOptional "host_name" Json.text fun r a => { r with hostName := a },
  .ofOptional "cpu_info" Cpu.read fun r a => { r with cpu := a },
  .ofOptional "num_cpus" count32 fun r a => { r with cpuCount := a }]

def Context.read : Json.Reader Context := record "struct RawContext" Context.fields {}

def Entry.fields : List (Json.Field Entry) := [
  .ofOptional "name" Json.text fun r a => { r with name := a },
  .ofOptional "real_time" Json.real fun r a => { r with realTime := a },
  .ofOptional "cpu_time" Json.real fun r a => { r with cpuTime := a },
  .ofOptional "iterations" count64 fun r a => { r with iterations := a },
  .ofOptional "items_per_second" Json.real fun r a => { r with itemsPerSecond := a },
  .ofOptional "time_unit" Json.text fun r a => { r with timeUnit := a }]

def Entry.read : Json.Reader Entry := record "struct RawRecord" Entry.fields {}

/-- A document of which the benchmarks may still be missing. -/
structure Partial where
  context : Option Context := none
  benchmarks : Option (List Entry) := none

def Partial.fields : List (Json.Field Partial) := [
  .ofOptional "context" Context.read fun r a => { r with context := a },
  { name := "benchmarks"
    read := fun r s =>
      (Json.list Entry.read s).map fun (a, rest) => ({ r with benchmarks := some a }, rest) }]

/-- The document, which must have benchmarks. -/
def Document.read : Json.Reader Document := fun s =>
  match Json.record "struct RawResults" Partial.fields {} s with
  | .error fault => .error fault
  | .ok ((⟨context, some benchmarks⟩, _), rest) => .ok (⟨context, benchmarks⟩, rest)
  | .ok ((⟨_, none⟩, .named), _) => .error (.missingField "benchmarks")
  | .ok ((⟨_, none⟩, .positional), _) =>
      .error (.wrongLength 1 "struct RawResults with 2 elements")

/-- The document that symbols are. -/
def Document.ofSymbols (s : Json.Symbols) : Except Json.Fault Document :=
  Json.document Document.read s

end TimingReport.Input
