import TimingReport.Input
import TimingReport.Proofs.Json.FieldTexts

/-!
# The records of an input document

The fields of each record have names of their own and can be set in any order, so what is
read from an object is settled by its members alone.
-/

namespace TimingReport.Input

open Json

theorem local_count32 : Local count32 := (local_natural 32).map UInt32.ofNat

theorem local_count64 : Local count64 := (local_natural 64).map UInt64.ofNat

/-! ## Records of one kind -/

section

variable {σ : Type} {slots : List (Slot σ)} {wanted : String} {empty r : σ}
  {members : List Member} {gap : Symbols}

/-- What stands around a record does not matter to its reader. -/
theorem local_record (hlawful : Lawful slots) (wanted : String) (empty : σ) :
    Local (record wanted (slots.map Slot.field) empty) :=
  (Json.local_record hlawful wanted empty).map Prod.fst

/-- The form that a record was found in is forgotten. -/
theorem reads_record_iff_of {fields : List (Json.Field σ)} {value : Symbols} {form : Form}
    {reads : σ → Prop} (hrecord : ∀ {r other rest left},
      Json.record wanted fields empty (value ++ rest) = .ok ((r, other), left) ↔
        left = rest ∧ other = form ∧ reads r) :
    Reads (record wanted fields empty) value r ↔ reads r := by
  constructor
  · intro hreads
    obtain ⟨⟨⟨r', other⟩, rest⟩, hread, hr⟩ := Outcome.map_eq_ok_iff.mp (hreads [] ends_nil)
    obtain rfl := (Prod.mk.inj hr).1
    exact (hrecord.mp hread).2.2
  · intro hr rest _
    exact Outcome.map_eq_ok_iff.mpr ⟨((r, form), rest), hrecord.mpr ⟨rfl, rfl, hr⟩, rfl⟩

/-- A record is read from an object exactly if the members fill it. -/
theorem reads_record_iff (hlawful : Lawful slots)
    (hmembers : ∀ member ∈ members, Value member.value) (hgap : Blank gap) :
    Reads (record wanted (slots.map Slot.field) empty) (objectText members gap) r ↔
      Fills slots members empty r :=
  reads_record_iff_of (record_eq_ok_iff hlawful hmembers hgap)

/-- A record is read as the texts of its fields say, in both of its forms. -/
theorem reads_record_iff_sets (hlawful : Lawful slots) {texts : Texts} {value : Symbols}
    (hholds : Holds (slots.map Slot.name) texts value) :
    Reads (record wanted (slots.map Slot.field) empty) value r ↔ Sets texts slots empty r := by
  cases hholds with
  | named hmembers hgap hholds =>
      rw [reads_record_iff hlawful hmembers hgap]
      exact hholds.fills_iff hlawful
  | positional hitems hgap hlength htexts =>
      rw [reads_record_iff_of (record_list_eq_ok_iff hitems hgap)]
      exact places_iff (by rwa [List.length_map] at hlength) htexts

end

/-! ## The fields of each record -/

def Cpu.slots : List (Slot Cpu) := [
  .ofOptional "name" local_text fun r a => { r with name := a },
  .ofOptional "num_cpus" local_count32 fun r a => { r with count := a }]

theorem Cpu.lawful : Lawful slots where
  distinct := by decide
  commutes := by simp [slots, Slot.ofOptional, Slot.Commutes]

theorem Cpu.local_read : Local read := local_record lawful _ _

def Context.slots : List (Slot Context) := [
  .ofOptional "host_name" local_text fun r a => { r with hostName := a },
  .ofOptional "cpu_info" Cpu.local_read fun r a => { r with cpu := a },
  .ofOptional "num_cpus" local_count32 fun r a => { r with cpuCount := a }]

theorem Context.lawful : Lawful slots where
  distinct := by decide
  commutes := by simp [slots, Slot.ofOptional, Slot.Commutes]

theorem Context.local_read : Local read := local_record lawful _ _

def Entry.slots : List (Slot Entry) := [
  .ofOptional "name" local_text fun r a => { r with name := a },
  .ofOptional "real_time" local_real fun r a => { r with realTime := a },
  .ofOptional "cpu_time" local_real fun r a => { r with cpuTime := a },
  .ofOptional "iterations" local_count64 fun r a => { r with iterations := a },
  .ofOptional "items_per_second" local_real fun r a => { r with itemsPerSecond := a },
  .ofOptional "time_unit" local_text fun r a => { r with timeUnit := a }]

theorem Entry.lawful : Lawful slots where
  distinct := by decide
  commutes := by simp [slots, Slot.ofOptional, Slot.Commutes]

theorem Entry.local_read : Local read := local_record lawful _ _

/-- The one field that must be there. -/
def Partial.benchmarkSlot : Slot Partial where
  name := "benchmarks"
  reader := list Entry.read
  isLocal := local_list Entry.local_read
  set r a := { r with benchmarks := some a }

def Partial.slots : List (Slot Partial) := [
  .ofOptional "context" Context.local_read fun r a => { r with context := a },
  benchmarkSlot]

theorem Partial.lawful : Lawful slots where
  distinct := by decide
  commutes := by simp [slots, benchmarkSlot, Slot.ofOptional, Slot.Commutes]

/-! ## Documents -/

/-- The document as a record that has its benchmarks. -/
def Document.full (document : Document) : Partial where
  context := document.context
  benchmarks := some document.benchmarks

theorem Partial.fields_eq : fields = slots.map Slot.field := rfl

/-- The record of a document that may still lack its benchmarks. -/
def Partial.read : Reader Partial := record "struct RawResults" fields {}

theorem Partial.local_read : Local read := local_record lawful _ _

variable {document : Document}

/-- A document is read exactly where a record with benchmarks is. -/
theorem Document.read_eq_ok_iff {s left : Symbols} :
    Document.read s = .ok (document, left) ↔ Partial.read s = .ok (document.full, left) := by
  obtain ⟨context, benchmarks⟩ := document
  rw [Document.read, Partial.read, record]
  cases Json.record "struct RawResults" Partial.fields {} s with
  | error fault => simp [Except.map]
  | ok found =>
      obtain ⟨⟨⟨otherContext, others⟩, form⟩, rest⟩ := found
      cases others with
      | none => cases form <;> simp [Except.map, Document.full]
      | some others => simp [Except.map, Document.full]

/-- A document is read from a value that is its record, benchmarks included. -/
theorem Document.ofSymbols_eq_ok_iff_reads {value before after : Symbols} (hvalue : Value value)
    (hbefore : Blank before) (hafter : Blank after) :
    Document.ofSymbols (before ++ (value ++ after)) = .ok document ↔
      Reads Partial.read value document.full := by
  have hends : Ends after := by simpa using ends_nil.append_blank hafter
  have hread : ∀ {other left}, Document.read (before ++ (value ++ after)) = .ok (other, left) ↔
      left = after ∧ Reads Partial.read value other.full := by
    intro other left
    rw [Document.read_eq_ok_iff, Partial.local_read.append_blank hbefore,
      Partial.local_read.eq_ok_iff hvalue hends]
  rw [Document.ofSymbols, Json.document]
  constructor
  · intro hdocument
    split at hdocument
    next => contradiction
    next found rest hfound =>
      split at hdocument
      next =>
        obtain rfl := Except.ok.inj hdocument
        exact (hread.mp hfound).2
      next => contradiction
  · intro hreads
    have hrest : skipBlank after = [] := List.dropWhile_eq_nil_iff.mpr hafter
    rw [hread.mpr ⟨rfl, hreads⟩]
    simp [hrest]

/-- A document is what the members of its object fill, with white space around it or not. -/
theorem Document.ofSymbols_eq_ok_iff {members : List Member} {gap : Symbols}
    (hmembers : ∀ member ∈ members, Value member.value) (hgap : Blank gap)
    {before after : Symbols} (hbefore : Blank before) (hafter : Blank after) :
    Document.ofSymbols (before ++ (objectText members gap ++ after)) = .ok document ↔
      Fills Partial.slots members {} document.full := by
  rw [ofSymbols_eq_ok_iff_reads (.object hgap hmembers) hbefore hafter]
  exact reads_record_iff Partial.lawful hmembers hgap

end TimingReport.Input
