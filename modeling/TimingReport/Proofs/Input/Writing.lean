import TimingReport.Proofs.Binary64.Exact
import TimingReport.Proofs.Input.Fields
import TimingReport.Proofs.Json.Writing
import TimingReport.Record

/-!
# Writing input documents

Results of a benchmark run as a JSON document, in which absent fields are left out. The
document is read as what was written.
-/

namespace TimingReport.Input

open Json

/-- A time that is a binary64 number. -/
abbrev WholeTime := { time : Nat // time ≤ Binary64.maxWhole }

/-- A benchmark whose times are whole numbers of its unit. -/
structure Measured where
  name : Option String := none
  realTime : Option WholeTime := none
  cpuTime : Option WholeTime := none
  iterations : Option UInt64 := none
  timeUnit : Option TimeUnit := none

/-- The results of a run: the machine and the benchmarks. -/
structure Results where
  context : Option Context := none
  benchmarks : List Measured

/-! ## Texts -/

/-- The symbol of a unit. -/
def symbol : TimeUnit → String
  | .nanoseconds => "ns"
  | .microseconds => "us"
  | .milliseconds => "ms"
  | .seconds => "s"

def Cpu.members (cpu : Cpu) : List (String × List Char) := List.flatten [
  Write.given "name" Write.string cpu.name,
  Write.given "num_cpus" (fun count => Write.natural count.toNat) cpu.count]

def Cpu.text (cpu : Cpu) : List Char := Write.object cpu.members

def Context.members (context : Context) : List (String × List Char) := List.flatten [
  Write.given "host_name" Write.string context.hostName,
  Write.given "cpu_info" Cpu.text context.cpu,
  Write.given "num_cpus" (fun count => Write.natural count.toNat) context.cpuCount]

def Context.text (context : Context) : List Char := Write.object context.members

def Measured.members (entry : Measured) : List (String × List Char) := List.flatten [
  Write.given "name" Write.string entry.name,
  Write.given "real_time" (fun time => Write.natural time.val) entry.realTime,
  Write.given "cpu_time" (fun time => Write.natural time.val) entry.cpuTime,
  Write.given "iterations" (fun count => Write.natural count.toNat) entry.iterations,
  Write.given "time_unit" (fun unit => Write.string (symbol unit)) entry.timeUnit]

def Measured.text (entry : Measured) : List Char := Write.object entry.members

def Results.members (results : Results) : List (String × List Char) :=
  Write.given "context" Context.text results.context ++
    [("benchmarks", Write.list (results.benchmarks.map Measured.text))]

def Results.text (results : Results) : String := String.ofList (Write.object results.members)

/-! ## What is read -/

/-- The entry of a benchmark. -/
def Measured.entry (entry : Measured) : Entry where
  name := entry.name
  realTime := entry.realTime.map fun time => .ofNat time.val
  cpuTime := entry.cpuTime.map fun time => .ofNat time.val
  iterations := entry.iterations
  timeUnit := entry.timeUnit.map symbol

/-- A count is written as a whole number. -/
theorem written_count32 (count : UInt32) :
    Written count32 (Write.natural count.toNat) count := by
  have hlt : count.toNat < Nat.pow 2 32 := count.toNat_lt
  have hle : count.toNat ≤ maxCount := Nat.le_trans (Nat.le_of_lt hlt) (by decide)
  have hreads := (written_natural hle hlt).reads.map UInt32.ofNat
  rw [UInt32.ofNat_toNat] at hreads
  exact (written_natural hle hlt).of_reads hreads

theorem written_count64 (count : UInt64) :
    Written count64 (Write.natural count.toNat) count := by
  have hlt : count.toNat < Nat.pow 2 64 := count.toNat_lt
  have hle : count.toNat ≤ maxCount := Nat.le_of_lt_succ hlt
  have hreads := (written_natural hle hlt).reads.map UInt64.ofNat
  rw [UInt64.ofNat_toNat] at hreads
  exact (written_natural hle hlt).of_reads hreads

/-- A whole time is written as the number it is. -/
theorem written_time (time : WholeTime) :
    Written real (Write.natural time.val) (.ofNat time.val) :=
  written_real (Nat.le_trans time.property (by decide))

/-- What is given of a processor is written, and read into its slots. -/
theorem Cpu.writtenMembers (cpu : Cpu) :
    WrittenMembers slots ["name", "num_cpus"] cpu.members {} cpu := by
  refine .given (List.mem_of_getElem? (i := 0) rfl) (by decide) written_string rfl ?_
  refine .given (List.mem_of_getElem? (i := 1) rfl) (by decide) written_count32 rfl ?_
  rw [Option.map_id', Option.map_id']
  exact writtenMembers_nil

/-- A processor is read back from its object. -/
theorem Cpu.written (cpu : Cpu) : Written read cpu.text cpu :=
  cpu.writtenMembers.object (reads_record_iff lawful cpu.writtenMembers.value_bare blank_nil).mpr

/-- What is given of a context is written, and read into its slots. -/
theorem Context.writtenMembers (context : Context) :
    WrittenMembers slots ["host_name", "cpu_info", "num_cpus"] context.members {} context := by
  refine .given (List.mem_of_getElem? (i := 0) rfl) (by decide) written_string rfl ?_
  refine .given (List.mem_of_getElem? (i := 1) rfl) (by decide) Cpu.written rfl ?_
  refine .given (List.mem_of_getElem? (i := 2) rfl) (by decide) written_count32 rfl ?_
  rw [Option.map_id', Option.map_id', Option.map_id']
  exact writtenMembers_nil

/-- A context is read back from its object. -/
theorem Context.written (context : Context) : Written read context.text context :=
  context.writtenMembers.object
    (reads_record_iff lawful context.writtenMembers.value_bare blank_nil).mpr

/-- What was measured is written, and read into the slots of an entry. -/
theorem Measured.writtenMembers (entry : Measured) :
    WrittenMembers Entry.slots ["name", "real_time", "cpu_time", "iterations", "time_unit"]
      entry.members {} entry.entry := by
  have hunit := fun unit => written_string (symbol unit)
  refine .given (List.mem_of_getElem? (i := 0) rfl) (by decide) written_string rfl ?_
  refine .given (List.mem_of_getElem? (i := 1) rfl) (by decide) written_time rfl ?_
  refine .given (List.mem_of_getElem? (i := 2) rfl) (by decide) written_time rfl ?_
  refine .given (List.mem_of_getElem? (i := 3) rfl) (by decide) written_count64 rfl ?_
  refine .given (List.mem_of_getElem? (i := 5) rfl) (by decide) hunit rfl ?_
  rw [Option.map_id', Option.map_id']
  exact writtenMembers_nil

/-- An entry is read back from its object. -/
theorem Measured.written (entry : Measured) : Written Entry.read entry.text entry.entry :=
  entry.writtenMembers.object
    (reads_record_iff Entry.lawful entry.writtenMembers.value_bare blank_nil).mpr

/-- The document of the results. -/
def Results.document (results : Results) : Document where
  context := results.context
  benchmarks := results.benchmarks.map Measured.entry

/-- The list of benchmarks is always there, the context if it is given. -/
theorem Results.writtenMembers (results : Results) :
    WrittenMembers Partial.slots ["context", "benchmarks"] results.members {}
      results.document.full := by
  have hslot : Partial.benchmarkSlot ∈ Partial.slots := List.mem_of_getElem? (i := 1) rfl
  have hlist := written_list Entry.local_read results.benchmarks fun entry _ => entry.written
  refine .given (List.mem_of_getElem? (i := 0) rfl) (by decide) Context.written rfl ?_
  rw [Option.map_id']
  exact .cons hslot List.not_mem_nil hlist writtenMembers_nil

/-- A document that was written is read as what was written. -/
theorem Document.ofSymbols_text (results : Results) :
    Document.ofSymbols (results.text.toList.map some) = .ok results.document := by
  have hmembers := results.writtenMembers
  have hread := (Document.ofSymbols_eq_ok_iff hmembers.value_bare blank_nil blank_nil
    blank_nil).mpr hmembers.fills
  rw [List.nil_append, List.append_nil, ← map_some_object] at hread
  rw [Results.text, String.toList_ofList]
  exact hread

example : Results.text {
    context := some { hostName := some "a\"b", cpu := some { count := some 4 } }
    benchmarks := [{ name := some "x\n", realTime := some ⟨20, by decide⟩ }, {}] } =
    "\x7b\"context\":\x7b\"host_name\":\"a\\\"b\",\"cpu_info\":\x7b\"num_cpus\":4\x7d\x7d," ++
      "\"benchmarks\":[\x7b\"name\":\"x\\n\",\"real_time\":20\x7d,\x7b\x7d]\x7d" := by rfl

end TimingReport.Input
