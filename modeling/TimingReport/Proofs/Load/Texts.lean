import TimingReport.Proofs.Input.Fields
import TimingReport.Proofs.Load.Entries

/-!
# What the texts of a document are loaded as

Every field of an entry is read from its own text, and every record is loaded from its own
entry. So a document that holds given texts is loaded item by item, in whatever form its records
are written.
-/

namespace TimingReport

open Json

/-! ## Reading -/

namespace Input

variable {texts : Texts}

def Entry.names : List String :=
  ["name", "real_time", "cpu_time", "iterations", "items_per_second", "time_unit"]

def Document.names : List String := ["context", "benchmarks"]

/-- The fields of an entry are read from the texts. -/
structure Entry.ReadsFrom (texts : Texts) (entry : Entry) : Prop where
  name : ReadsField text (texts "name") entry.name
  realTime : ReadsField real (texts "real_time") entry.realTime
  cpuTime : ReadsField real (texts "cpu_time") entry.cpuTime
  iterations : ReadsField count64 (texts "iterations") entry.iterations
  itemsPerSecond : ReadsField real (texts "items_per_second") entry.itemsPerSecond
  timeUnit : ReadsField text (texts "time_unit") entry.timeUnit

theorem Entry.sets_iff {entry : Entry} : Sets texts slots {} entry ↔ ReadsFrom texts entry := by
  constructor
  · intro hsets
    obtain ⟨name, hname, hsets⟩ := (sets_ofOptional_iff rfl).mp hsets
    obtain ⟨realTime, hrealTime, hsets⟩ := (sets_ofOptional_iff rfl).mp hsets
    obtain ⟨cpuTime, hcpuTime, hsets⟩ := (sets_ofOptional_iff rfl).mp hsets
    obtain ⟨iterations, hiterations, hsets⟩ := (sets_ofOptional_iff rfl).mp hsets
    obtain ⟨itemsPerSecond, hitemsPerSecond, hsets⟩ := (sets_ofOptional_iff rfl).mp hsets
    obtain ⟨timeUnit, htimeUnit, hsets⟩ := (sets_ofOptional_iff rfl).mp hsets
    cases hsets
    exact ⟨hname, hrealTime, hcpuTime, hiterations, hitemsPerSecond, htimeUnit⟩
  · rintro ⟨hname, hrealTime, hcpuTime, hiterations, hitemsPerSecond, htimeUnit⟩
    refine (sets_ofOptional_iff rfl).mpr ⟨_, hname, ?_⟩
    refine (sets_ofOptional_iff rfl).mpr ⟨_, hrealTime, ?_⟩
    refine (sets_ofOptional_iff rfl).mpr ⟨_, hcpuTime, ?_⟩
    refine (sets_ofOptional_iff rfl).mpr ⟨_, hiterations, ?_⟩
    refine (sets_ofOptional_iff rfl).mpr ⟨_, hitemsPerSecond, ?_⟩
    exact (sets_ofOptional_iff rfl).mpr ⟨_, htimeUnit, rfl⟩

theorem Entry.reads_iff {value : Symbols} (hholds : Holds names texts value) {entry : Entry} :
    Reads read value entry ↔ ReadsFrom texts entry :=
  (reads_record_iff_sets lawful hholds).trans sets_iff

theorem Document.sets_iff {document : Document} :
    Sets texts Partial.slots {} document.full ↔
      ReadsField Context.read (texts "context") document.context ∧
        ∃ text, texts "benchmarks" = some text ∧
          Reads (list Entry.read) text document.benchmarks := by
  constructor
  · intro hsets
    obtain ⟨context, hcontext, hsets⟩ := (sets_ofOptional_iff rfl).mp hsets
    cases htext : texts Partial.benchmarkSlot.name with
    | none =>
        rw [sets_cons_none_iff htext] at hsets
        cases hsets
    | some text =>
        obtain ⟨benchmarks, hreads, hsets⟩ := (sets_cons_some_iff htext).mp hsets
        cases hsets
        exact ⟨hcontext, text, htext, hreads⟩
  · rintro ⟨hcontext, text, htext, hreads⟩
    refine (sets_ofOptional_iff rfl).mpr ⟨_, hcontext, ?_⟩
    exact (@sets_cons_some_iff _ _ Partial.benchmarkSlot _ _ _ _ htext).mpr ⟨_, hreads, rfl⟩

/-- A document is read entry by entry. -/
theorem Document.ofSymbols_eq_ok_iff_items {before value after gap : Symbols} {items : List Item}
    (hbefore : Blank before) (hafter : Blank after) (hholds : Holds names texts value)
    (hbenchmarks : texts "benchmarks" = some (listText items gap))
    (hitems : ∀ item ∈ items, Value item.value) (hgap : Blank gap) {document : Document} :
    ofSymbols (before ++ (value ++ after)) = .ok document ↔
      ReadsField Context.read (texts "context") document.context ∧
        List.Forall₂ (fun item entry => Reads Entry.read item.value entry) items
          document.benchmarks := by
  rw [ofSymbols_eq_ok_iff_reads hholds.value hbefore hafter, Partial.read, Partial.fields_eq,
    reads_record_iff_sets Partial.lawful hholds, sets_iff]
  simp only [hbenchmarks, Option.some.injEq, exists_eq_left',
    reads_list_iff Entry.local_read hitems hgap]

end Input

/-! ## Loading -/

namespace Load

/-- The record is what an entry with the given text is loaded as. -/
def Loads (value : Symbols) (record : Record) : Prop :=
  ∃ entry, Reads Input.Entry.read value entry ∧ Reportable entry ∧ LoadsAs entry record

/-- The unit of an entry with the given text for it. -/
def LoadsUnit (text : Option Symbols) (unit : TimeUnit) : Prop :=
  ∃ symbol, ReadsField Json.text text symbol ∧ HasUnit { timeUnit := symbol } unit

/-- A timing with the given text. -/
def LoadsTime (unit : TimeUnit) (text : Option Symbols) (time : Binary64) : Prop :=
  ∃ given, ReadsField real text given ∧ IsTiming (scaled unit given) ∧ time = scaled unit given

/-- The fields of a record that are no timings. -/
structure LoadsUntimed (texts : Texts) (record : Record) : Prop where
  name : ∃ name, ReadsField text (texts "name") name ∧ Shows name record.name
  iterations : ∃ iterations, ReadsField Input.count64 (texts "iterations") iterations ∧
    record.iterations = iterations.getD 0
  itemsPerSecond : ReadsField real (texts "items_per_second") record.itemsPerSecond

variable {texts : Texts} {r : Record}

/-- An entry is loaded field by field. -/
theorem loads_iff {value : Symbols} (hholds : Holds Input.Entry.names texts value) :
    Loads value r ↔ LoadsUntimed texts r ∧ ∃ unit, LoadsUnit (texts "time_unit") unit ∧
      LoadsTime unit (texts "real_time") r.realTime ∧
      LoadsTime unit (texts "cpu_time") r.cpuTime := by
  simp only [Loads, Input.Entry.reads_iff hholds]
  constructor
  · rintro ⟨entry, hreads, hreportable, hrecord⟩
    obtain ⟨unit, hunit, hrealTime, hcpuTime⟩ := hrecord.times
    obtain ⟨hrealTiming, hcpuTiming⟩ := (reportable_iff hunit).mp hreportable
    refine ⟨⟨⟨_, hreads.name, hrecord.name⟩, ⟨_, hreads.iterations, hrecord.iterations⟩, ?_⟩,
      unit, ⟨_, hreads.timeUnit, hunit⟩, ⟨_, hreads.realTime, hrealTiming, hrealTime⟩,
      _, hreads.cpuTime, hcpuTiming, hcpuTime⟩
    rw [hrecord.itemsPerSecond]
    exact hreads.itemsPerSecond
  · rintro ⟨⟨⟨name, hname, hrecordName⟩, ⟨iterations, hiterations, hrecordIterations⟩, hitems⟩,
      unit, ⟨symbol, hsymbol, hunit⟩, ⟨realTime, hrealTime, hrealTiming, hrecordReal⟩,
      cpuTime, hcpuTime, hcpuTiming, hrecordCpu⟩
    let entry : Input.Entry := {
      name, realTime, cpuTime, iterations
      itemsPerSecond := r.itemsPerSecond
      timeUnit := symbol }
    have hentry : HasUnit entry unit := hunit
    exact ⟨entry, ⟨hname, hrealTime, hcpuTime, hiterations, hitems, hsymbol⟩,
      (reportable_iff hentry).mpr ⟨hrealTiming, hcpuTiming⟩,
      ⟨hrecordName, ⟨unit, hentry, hrecordReal, hrecordCpu⟩, hrecordIterations, rfl⟩⟩

/-- Two relations between lists have one between their ends. -/
theorem forall₂_exists_iff {α β γ : Type} {related : α → β → Prop} {other : β → γ → Prop}
    {as : List α} {cs : List γ} :
    List.Forall₂ (fun a c => ∃ b, related a b ∧ other b c) as cs ↔
      ∃ bs, List.Forall₂ related as bs ∧ List.Forall₂ other bs cs := by
  constructor
  · intro hall
    induction hall with
    | nil => exact ⟨[], .nil, .nil⟩
    | cons hfirst _ ih =>
        obtain ⟨b, hrelated, hother⟩ := hfirst
        obtain ⟨bs, hrest, hothers⟩ := ih
        exact ⟨b :: bs, .cons hrelated hrest, .cons hother hothers⟩
  · rintro ⟨bs, hrelated, hother⟩
    induction hrelated generalizing cs with
    | nil =>
        cases hother
        exact .nil
    | cons hfirst _ ih =>
        cases hother with
        | cons hnext hothers => exact .cons ⟨_, hfirst, hnext⟩ (ih hothers)

theorem ofSymbols_eq_ok_iff {source : String} {s : Symbols} {loaded : Run} :
    ofSymbols source s = .ok loaded ↔
      ∃ document, Input.Document.ofSymbols s = .ok document ∧ run source document = .ok loaded := by
  rw [ofSymbols]
  cases Input.Document.ofSymbols s <;> simp

/-- A document is loaded entry by entry. -/
theorem ofSymbols_eq_ok_iff_loads {source : String} {before value after gap : Symbols}
    {items : List Item} {loaded : Run} (hbefore : Blank before) (hafter : Blank after)
    (hholds : Holds Input.Document.names texts value)
    (hbenchmarks : texts "benchmarks" = some (listText items gap))
    (hitems : ∀ item ∈ items, Value item.value) (hgap : Blank gap) :
    ofSymbols source (before ++ (value ++ after)) = .ok loaded ↔
      (∃ context, ReadsField Input.Context.read (texts "context") context ∧
        loaded.machine = machine context) ∧
      List.Forall₂ (fun item r => Loads item.value r) items loaded.records ∧
      loaded.source = source := by
  simp only [ofSymbols_eq_ok_iff,
    Input.Document.ofSymbols_eq_ok_iff_items hbefore hafter hholds hbenchmarks hitems hgap,
    run_eq_ok_iff, Loads, forall₂_exists_iff, List.forall₂_and_left]
  constructor
  · rintro ⟨⟨context, benchmarks⟩, ⟨hcontext, hreads⟩, hreportable, hrecords, hmachine, hsource⟩
    exact ⟨⟨context, hcontext, hmachine⟩, ⟨benchmarks, hreads, hreportable, hrecords⟩, hsource⟩
  · rintro ⟨⟨context, hcontext, hmachine⟩, ⟨benchmarks, hreads, hreportable, hrecords⟩, hsource⟩
    exact ⟨⟨context, benchmarks⟩, ⟨hcontext, hreads⟩, hreportable, hrecords, hmachine, hsource⟩

end Load

end TimingReport
