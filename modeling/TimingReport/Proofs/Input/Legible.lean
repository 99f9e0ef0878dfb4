import TimingReport.Proofs.Input.Fields
import TimingReport.Proofs.Json.Sound
import TimingReport.Proofs.Json.Spelled

/-!
# Documents with bytes that are no text

A document that is read is one value, and where it is read it consists of characters. Bytes that
are no text may stand in strings of members that name no field. So every name that is taken from
the document is spelled by characters of it.
-/

namespace TimingReport.Input

open Json

/-! ## Documents are values -/

section

variable {σ : Type} {slots : List (Slot σ)}

/-- A record is taken from an object or a list if its fields take values. -/
theorem sound_record (hsound : ∀ slot ∈ slots, Sound slot.reader) (wanted : String) (empty : σ) :
    Sound (record wanted (slots.map Slot.field) empty) :=
  ((SoundFields.of_slots hsound).record wanted empty).map Prod.fst

theorem sound_count32 : Sound count32 := (sound_natural 32).map UInt32.ofNat

theorem sound_count64 : Sound count64 := (sound_natural 64).map UInt64.ofNat

theorem Cpu.sound_read : Sound read := by
  have hslots : ∀ slot ∈ slots, Sound slot.reader := by
    simp only [slots, List.forall_mem_cons]
    exact ⟨sound_text.optional, sound_count32.optional, List.forall_mem_nil _⟩
  exact sound_record hslots _ _

theorem Context.sound_read : Sound read := by
  have hslots : ∀ slot ∈ slots, Sound slot.reader := by
    simp only [slots, List.forall_mem_cons]
    exact ⟨sound_text.optional, Cpu.sound_read.optional, sound_count32.optional,
      List.forall_mem_nil _⟩
  exact sound_record hslots _ _

theorem Entry.sound_read : Sound read := by
  have hslots : ∀ slot ∈ slots, Sound slot.reader := by
    simp only [slots, List.forall_mem_cons]
    exact ⟨sound_text.optional, sound_real.optional, sound_real.optional, sound_count64.optional,
      sound_real.optional, sound_text.optional, List.forall_mem_nil _⟩
  exact sound_record hslots _ _

/-- A document is one value. -/
theorem Document.sound_read : Sound read := by
  have hslots : ∀ slot ∈ Partial.slots, Sound slot.reader := by
    simp only [Partial.slots, List.forall_mem_cons]
    exact ⟨Context.sound_read.optional, Entry.sound_read.list, List.forall_mem_nil _⟩
  intro s rest document hread
  exact sound_record hslots _ _ (read_eq_ok_iff.mp hread)

/-- Whatever is read as a document is a value between white space. -/
theorem Document.exists_value {s : Symbols} {document : Document}
    (hdocument : ofSymbols s = .ok document) :
    ∃ before value after, s = before ++ (value ++ after) ∧ Blank before ∧ Blank after ∧
      Value value ∧ Reads Partial.read value document.full := by
  obtain ⟨before, value, after, rfl, hbefore, hvalue, hafter⟩ := sound_read.document hdocument
  exact ⟨before, value, after, rfl, hbefore, hafter, hvalue,
    (ofSymbols_eq_ok_iff_reads hvalue hbefore hafter).mp hdocument⟩

/-! ## Where documents are read -/

def Cpu.layout : Layout := [("name", Clear), ("num_cpus", Clear)]

def Context.layout : Layout := [
  ("host_name", Clear),
  ("cpu_info", OrNull (RecordOf Cpu.layout)),
  ("num_cpus", Clear)]

def Entry.layout : Layout := [
  ("name", Clear),
  ("real_time", Clear),
  ("cpu_time", Clear),
  ("iterations", Clear),
  ("items_per_second", Clear),
  ("time_unit", Clear)]

def Document.layout : Layout := [
  ("context", OrNull (RecordOf Context.layout)),
  ("benchmarks", ListOf (RecordOf Entry.layout))]

/-- A document that consists of characters but for what is passed over: whatever is no character
stands in a string, and the string in a member that names no field. -/
inductive Document.IsLegible : Symbols → Prop
  | intro {before value after : Symbols} (hbefore : Blank before) (hafter : Blank after)
      (hvalue : RecordOf layout value) : IsLegible (before ++ (value ++ after))

theorem finds_count32 : Finds count32 Clear :=
  (finds_natural 32).map (local_natural 32) UInt32.ofNat

theorem finds_count64 : Finds count64 Clear :=
  (finds_natural 64).map (local_natural 64) UInt64.ofNat

/-- A record is read from what has the layout of its fields. -/
theorem finds_record {layout : Layout} (hfits : layout.Fits slots) (hlawful : Lawful slots)
    (wanted : String) (empty : σ) :
    Finds (record wanted (slots.map Slot.field) empty) (RecordOf layout) :=
  (hfits.finds_record hlawful wanted empty).map (Json.local_record hlawful wanted empty) Prod.fst

theorem Cpu.finds_read : Finds read (RecordOf layout) := by
  have hfits : layout.Fits slots :=
    .cons ⟨rfl, finds_text.optional_clear⟩ (.cons ⟨rfl, finds_count32.optional_clear⟩ .nil)
  exact finds_record hfits lawful _ _

theorem Context.finds_read : Finds read (RecordOf layout) := by
  have hfits : layout.Fits slots :=
    .cons ⟨rfl, finds_text.optional_clear⟩ (.cons ⟨rfl, Cpu.finds_read.optional⟩
      (.cons ⟨rfl, finds_count32.optional_clear⟩ .nil))
  exact finds_record hfits lawful _ _

theorem Entry.finds_read : Finds read (RecordOf layout) := by
  have hfits : layout.Fits slots :=
    .cons ⟨rfl, finds_text.optional_clear⟩ (.cons ⟨rfl, finds_real.optional_clear⟩
      (.cons ⟨rfl, finds_real.optional_clear⟩ (.cons ⟨rfl, finds_count64.optional_clear⟩
        (.cons ⟨rfl, finds_real.optional_clear⟩ (.cons ⟨rfl, finds_text.optional_clear⟩ .nil)))))
  exact finds_record hfits lawful _ _

/-- A document is read from what has the layout of its members. -/
theorem Document.finds_read : Finds Partial.read (RecordOf layout) := by
  have hfits : layout.Fits Partial.slots :=
    .cons ⟨rfl, Context.finds_read.optional⟩
      (.cons ⟨rfl, Entry.finds_read.list Entry.local_read⟩ .nil)
  exact finds_record hfits Partial.lawful _ _

/-! ## Names in documents -/

/-- The names that are given for a processor. -/
def Cpu.texts (cpu : Cpu) : List String := cpu.name.toList

def Context.texts (context : Context) : List String :=
  context.hostName.toList ++ context.cpu.toList.flatMap Cpu.texts

def Entry.texts (entry : Entry) : List String := entry.name.toList

def Partial.texts (document : Partial) : List String :=
  document.context.toList.flatMap Context.texts ++
    document.benchmarks.toList.flatMap fun entries => entries.flatMap Entry.texts

/-- The texts of a record are spelled where it is read if those of its fields are. -/
theorem tells_record {texts : σ → List String} (hlawful : Lawful slots)
    (htells : ∀ slot ∈ slots, slot.Tells texts) {empty : σ} (hempty : texts empty = [])
    (wanted : String) : Tells (record wanted (slots.map Slot.field) empty) texts :=
  (Json.tells_record hlawful htells hempty wanted).map (Json.local_record hlawful wanted empty)

theorem Cpu.tells_read : Tells read texts := by
  have hslots : ∀ slot ∈ slots, slot.Tells texts := by
    simp only [slots, List.forall_mem_cons]
    refine ⟨?name, ?count, List.forall_mem_nil _⟩
    case name => exact Slot.tells tells_text.optional fun r a => by simp [texts, Slot.ofOptional]
    case count => exact Slot.tells (tells_nothing _) fun r a => by simp [texts, Slot.ofOptional]
  exact tells_record lawful hslots rfl _

theorem Context.tells_read : Tells read texts := by
  have hslots : ∀ slot ∈ slots, slot.Tells texts := by
    simp only [slots, List.forall_mem_cons]
    refine ⟨?hostName, ?cpu, ?cpuCount, List.forall_mem_nil _⟩
    case hostName =>
      refine Slot.tells tells_text.optional fun r a => ?_
      simp [texts, Slot.ofOptional]
    case cpu =>
      refine Slot.tells Cpu.tells_read.optional fun r a => ?_
      simp [texts, Slot.ofOptional]
    case cpuCount => exact Slot.tells (tells_nothing _) fun r a => by simp [texts, Slot.ofOptional]
  exact tells_record lawful hslots rfl _

theorem Entry.tells_read : Tells read texts := by
  have hslots : ∀ slot ∈ slots, slot.Tells texts := by
    simp only [slots, List.forall_mem_cons]
    refine ⟨?name, ?realTime, ?cpuTime, ?iterations, ?itemsPerSecond, ?timeUnit,
      List.forall_mem_nil _⟩
    case name => exact Slot.tells tells_text.optional fun r a => by simp [texts, Slot.ofOptional]
    all_goals exact Slot.tells (tells_nothing _) fun r a => by simp [texts, Slot.ofOptional]
  exact tells_record lawful hslots rfl _

/-- All texts of a document are spelled in it. -/
theorem Partial.tells_read : Tells read texts := by
  have hslots : ∀ slot ∈ slots, slot.Tells texts := by
    simp only [slots, List.forall_mem_cons]
    refine ⟨?context, ?benchmarks, List.forall_mem_nil _⟩
    case context =>
      refine Slot.tells Context.tells_read.optional fun r a => ?_
      simp [texts, Slot.ofOptional]
    case benchmarks =>
      refine Slot.tells (Entry.tells_read.list Entry.local_read) fun r (a : List Entry) => ?_
      change texts { r with benchmarks := some a } ⊆ _
      simp [texts]
  exact tells_record lawful hslots rfl _

end

/-! ## What is read of a document -/

/-- A document that is read consists of characters but for what is passed over. -/
theorem Document.isLegible {s : Symbols} {document : Document}
    (hdocument : ofSymbols s = .ok document) : IsLegible s := by
  obtain ⟨before, value, after, rfl, hbefore, hafter, hvalue, hreads⟩ := exists_value hdocument
  exact .intro hbefore hafter (finds_read hvalue hreads)

/-- The names in a document are spelled by its strings. -/
theorem Document.spelledIn {s : Symbols} {document : Document}
    (hdocument : ofSymbols s = .ok document) {text : String} (htext : text ∈ document.full.texts) :
    SpelledIn s text := by
  obtain ⟨before, value, after, rfl, hbefore, hafter, hvalue, hreads⟩ := exists_value hdocument
  exact (Partial.tells_read hvalue hreads text htext).mono ⟨before, after, by simp⟩

end TimingReport.Input
