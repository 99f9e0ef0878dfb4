import Mathlib.Data.List.Forall2
import TimingReport.Load
import TimingReport.Proofs.Binary64.Exact
import TimingReport.Proofs.Outcome

/-!
# Which documents are loaded

A document is read as a whole before its entries are looked at. Its run is loaded exactly
if every entry can be reported; otherwise the fault is the one of the first entry that
cannot, and that entry's first. Loaded timings are finite and not below zero, and loaded
names can be seen.
-/

namespace TimingReport.Load

/-! ## Conditions on an entry -/

/-- A text with a character that is not white space. -/
def CanBeSeen (text : String) : Prop := ∃ c ∈ text.toList, ¬Text.isBlank c

/-- What a name is reported as. -/
inductive Shows : Option String → String → Prop
  | given {name : String} (hseen : CanBeSeen name) : Shows (some name) name
  | blank {name : String} (hblank : ¬CanBeSeen name) : Shows (some name) "Unknown"
  | absent : Shows none "Unknown"

/-- The symbols of the units. -/
inductive IsSymbol : String → TimeUnit → Prop
  | nanoseconds : IsSymbol "ns" .nanoseconds
  | microseconds : IsSymbol "us" .microseconds
  | milliseconds : IsSymbol "ms" .milliseconds
  | seconds : IsSymbol "s" .seconds

/-- The unit that an entry names, nanoseconds if it names none. -/
def HasUnit (entry : Input.Entry) (unit : TimeUnit) : Prop :=
  match entry.timeUnit with
  | none => unit = .nanoseconds
  | some symbol => IsSymbol symbol unit

/-- How many nanoseconds a unit has. -/
def factor : TimeUnit → Nat
  | .nanoseconds => 1
  | .microseconds => 10 ^ 3
  | .milliseconds => 10 ^ 6
  | .seconds => 10 ^ 9

/-- A time of a unit in nanoseconds, rounded once; one that is absent is zero. -/
def scaled (unit : TimeUnit) (time : Option Binary64) : Binary64 :=
  time.getD (.zero false) * .ofNat (factor unit)

/-- A timing that can be reported. -/
def IsTiming (time : Binary64) : Prop := time.isFinite ∧ ¬time.lt (.zero false)

/-- An entry that can be reported. -/
def Reportable (entry : Input.Entry) : Prop :=
  ∃ unit, HasUnit entry unit ∧
    IsTiming (scaled unit entry.realTime) ∧ IsTiming (scaled unit entry.cpuTime)

/-- What is wrong with a timing. -/
inductive TimingFault (field : TimingField) (time : Binary64) : EntryFault → Prop
  | notFinite (hinfinite : ¬time.isFinite) : TimingFault field time (.notFinite field)
  | negative (hfinite : time.isFinite) (hbelow : time.lt (.zero false)) :
      TimingFault field time (.negative field time)

/-- What is wrong with an entry first: its unit, its real time or its CPU time. -/
inductive FirstFault (entry : Input.Entry) : EntryFault → Prop
  | unit {symbol : String} (hsymbol : entry.timeUnit = some symbol)
      (hunknown : ∀ unit, ¬IsSymbol symbol unit) : FirstFault entry (.unknownUnit symbol)
  | realTime {unit : TimeUnit} {fault : EntryFault} (hunit : HasUnit entry unit)
      (hfault : TimingFault .realTime (scaled unit entry.realTime) fault) :
      FirstFault entry fault
  | cpuTime {unit : TimeUnit} {fault : EntryFault} (hunit : HasUnit entry unit)
      (hrealTime : IsTiming (scaled unit entry.realTime))
      (hfault : TimingFault .cpuTime (scaled unit entry.cpuTime) fault) :
      FirstFault entry fault

/-- The record is what the entry says. -/
structure LoadsAs (entry : Input.Entry) (record : Record) : Prop where
  name : Shows entry.name record.name
  times : ∃ unit, HasUnit entry unit ∧
    record.realTime = scaled unit entry.realTime ∧ record.cpuTime = scaled unit entry.cpuTime
  iterations : record.iterations = entry.iterations.getD 0
  itemsPerSecond : record.itemsPerSecond = entry.itemsPerSecond

/-- Counts up to the product of two exact ones are timings. -/
theorem isTiming_ofNat {n : Nat} (hn : n ≤ Binary64.maxWhole * Binary64.maxWhole) :
    IsTiming (.ofNat n) :=
  ⟨Binary64.isFinite_ofNat hn, Binary64.not_lt_zero_ofNat n⟩

/-! ## One entry -/

/-- A text is taken for a unit exactly if it is its symbol. -/
theorem ofSymbol?_eq_some_iff {symbol : String} {unit : TimeUnit} :
    TimeUnit.ofSymbol? symbol = some unit ↔ IsSymbol symbol unit := by
  constructor
  · intro hunit
    unfold TimeUnit.ofSymbol? at hunit
    split at hunit
    all_goals cases hunit
    all_goals constructor
  · rintro (_ | _ | _ | _) <;> rfl

/-- No text is the symbol of two units. -/
theorem IsSymbol.unique {symbol : String} {first second : TimeUnit}
    (hfirst : IsSymbol symbol first) (hsecond : IsSymbol symbol second) : first = second :=
  Option.some.inj
    ((ofSymbol?_eq_some_iff.mpr hfirst).symm.trans (ofSymbol?_eq_some_iff.mpr hsecond))

theorem ofSymbol?_eq_none_iff {symbol : String} :
    TimeUnit.ofSymbol? symbol = none ↔ ∀ unit, ¬IsSymbol symbol unit := by
  simp only [Option.eq_none_iff_forall_ne_some, ne_eq, ofSymbol?_eq_some_iff]

/-- The nanoseconds of a unit are the power of ten that it stands for. -/
theorem nanos_eq_factor (unit : TimeUnit) : unit.nanos = factor unit := by cases unit <;> rfl

/-- Times are multiplied by the power of ten of their unit. -/
theorem scale_eq_scaled (unit : TimeUnit) (time : Option Binary64) :
    scale unit time = scaled unit time := by
  rw [scale, nanos_eq_factor, scaled]

/-- A name is shown in one way only. -/
theorem shows_iff {name : Option String} {shown : String} :
    Shows name shown ↔ shown = nameOr name := by
  have hblank : ∀ name : String, Text.isBlankText name = true ↔ ¬CanBeSeen name := by
    intro name
    simp [CanBeSeen, Text.isBlankText]
  constructor
  · rintro (hseen | hhidden | _)
    · rw [nameOr, if_neg (by rwa [hblank, not_not])]
    · rw [nameOr, if_pos ((hblank _).mpr hhidden), unknownName]
    · rfl
  · rintro rfl
    cases name with
    | none => exact .absent
    | some name =>
        by_cases hseen : CanBeSeen name
        · rw [nameOr, if_neg (by rwa [hblank, not_not])]
          exact .given hseen
        · rw [nameOr, if_pos ((hblank _).mpr hseen), unknownName]
          exact .blank hseen

theorem shows_nameOr (name : Option String) : Shows name (nameOr name) := shows_iff.mpr rfl

/-- The unit of an entry is found exactly if it states one or none at all. -/
theorem unitOf_eq_ok_iff {entry : Input.Entry} {unit : TimeUnit} :
    unitOf entry = .ok unit ↔ HasUnit entry unit := by
  unfold unitOf HasUnit
  cases entry.timeUnit with
  | none => simp [eq_comm]
  | some symbol =>
      dsimp only
      rw [← ofSymbol?_eq_some_iff]
      cases TimeUnit.ofSymbol? symbol <;> simp

/-- An entry has no unit exactly if it states a text that is no symbol. -/
theorem unitOf_eq_error_iff {entry : Input.Entry} {fault : EntryFault} :
    unitOf entry = .error fault ↔ ∃ symbol, entry.timeUnit = some symbol ∧
      (∀ unit, ¬IsSymbol symbol unit) ∧ fault = .unknownUnit symbol := by
  simp only [← ofSymbol?_eq_none_iff]
  unfold unitOf
  cases entry.timeUnit with
  | none => simp
  | some symbol => cases hunit : TimeUnit.ofSymbol? symbol <;> simp [hunit, eq_comm]

/-- An entry has at most one unit. -/
theorem HasUnit.unique {entry : Input.Entry} {first second : TimeUnit}
    (hfirst : HasUnit entry first) (hsecond : HasUnit entry second) : first = second :=
  Except.ok.inj ((unitOf_eq_ok_iff.mpr hfirst).symm.trans (unitOf_eq_ok_iff.mpr hsecond))

variable {field : TimingField} {time : Binary64}

/-- The check passes exactly the timings. -/
theorem checkTiming_eq_ok_iff : checkTiming field time = .ok () ↔ IsTiming time := by
  unfold checkTiming IsTiming
  cases time.isFinite <;> cases time.lt (.zero false) <;> simp

/-- The check refuses a time for the reason that there is. -/
theorem checkTiming_eq_error_iff {fault : EntryFault} :
    checkTiming field time = .error fault ↔ TimingFault field time fault := by
  unfold checkTiming
  constructor
  · intro hcheck
    split at hcheck
    next hinfinite =>
      obtain rfl := Except.error.inj hcheck
      exact .notFinite (by simpa using hinfinite)
    next hfinite =>
      split at hcheck
      next hbelow =>
        obtain rfl := Except.error.inj hcheck
        exact .negative (by simpa using hfinite) hbelow
      next => contradiction
  · rintro (hinfinite | ⟨hfinite, hbelow⟩)
    · simp [hinfinite]
    · simp [hfinite, hbelow]

/-- The record of an entry whose unit is known and whose timings are checked. -/
def recordIn (unit : TimeUnit) (entry : Input.Entry) : Record where
  name := nameOr entry.name
  realTime := scaled unit entry.realTime
  cpuTime := scaled unit entry.cpuTime
  iterations := entry.iterations.getD 0
  itemsPerSecond := entry.itemsPerSecond

variable {entry : Input.Entry} {unit : TimeUnit} {r : Record} {fault : EntryFault}

/-- Both times are checked in the unit of their entry, the real time first. -/
theorem record_of_unit (hunit : HasUnit entry unit) :
    record entry = do
      checkTiming .realTime (scaled unit entry.realTime)
      checkTiming .cpuTime (scaled unit entry.cpuTime)
      return recordIn unit entry := by
  simp only [record, unitOf_eq_ok_iff.mpr hunit, scale_eq_scaled]
  rfl

/-- An entry with a unit loads as the record in that unit. -/
theorem loadsAs_iff (hunit : HasUnit entry unit) :
    LoadsAs entry r ↔ r = recordIn unit entry := by
  constructor
  · rintro ⟨hname, ⟨other, hother, hreal, hcpu⟩, hiterations, hitems⟩
    obtain rfl := hother.unique hunit
    rw [shows_iff] at hname
    cases r
    simp_all [recordIn]
  · rintro rfl
    exact ⟨shows_nameOr _, ⟨unit, hunit, rfl, rfl⟩, rfl, rfl⟩

/-- An entry with a unit can be reported exactly if both its times are timings. -/
theorem reportable_iff (hunit : HasUnit entry unit) : Reportable entry ↔
    IsTiming (scaled unit entry.realTime) ∧ IsTiming (scaled unit entry.cpuTime) := by
  constructor
  · rintro ⟨other, hother, htimings⟩
    rwa [hother.unique hunit] at htimings
  · exact fun htimings => ⟨unit, hunit, htimings⟩

/-- The three checks of an entry come down to its being reportable. -/
theorem record_eq_ok_iff : record entry = .ok r ↔ Reportable entry ∧ LoadsAs entry r := by
  cases hread : unitOf entry with
  | error fault =>
      have hnone : ¬Reportable entry := by
        rintro ⟨unit, hunit, _⟩
        rw [unitOf_eq_ok_iff.mpr hunit] at hread
        contradiction
      simp [record, hread, hnone, bind, Except.bind]
  | ok unit =>
      have hunit := unitOf_eq_ok_iff.mp hread
      rw [record_of_unit hunit, reportable_iff hunit, loadsAs_iff hunit,
        ← checkTiming_eq_ok_iff, ← checkTiming_eq_ok_iff]
      cases checkTiming .realTime (scaled unit entry.realTime) with
      | error => simp [bind, Except.bind]
      | ok =>
        cases checkTiming .cpuTime (scaled unit entry.cpuTime) with
        | error => simp [bind, Except.bind]
        | ok => simp [bind, Except.bind, pure, Except.pure, eq_comm]

/-- An entry is refused exactly for its first fault. -/
theorem record_eq_error_iff : record entry = .error fault ↔ FirstFault entry fault := by
  constructor
  · intro hrecord
    cases hread : unitOf entry with
    | error other =>
        obtain ⟨symbol, hsymbol, hunknown, rfl⟩ := unitOf_eq_error_iff.mp hread
        simp only [record, hread, bind, Except.bind] at hrecord
        obtain rfl := Except.error.inj hrecord
        exact .unit hsymbol hunknown
    | ok unit =>
        have hunit := unitOf_eq_ok_iff.mp hread
        rw [record_of_unit hunit] at hrecord
        cases hreal : checkTiming .realTime (scaled unit entry.realTime) with
        | error =>
            rw [hreal] at hrecord
            obtain rfl := Except.error.inj hrecord
            exact .realTime hunit (checkTiming_eq_error_iff.mp hreal)
        | ok =>
            rw [hreal] at hrecord
            cases hcpu : checkTiming .cpuTime (scaled unit entry.cpuTime) with
            | error =>
                rw [hcpu] at hrecord
                obtain rfl := Except.error.inj hrecord
                exact .cpuTime hunit (checkTiming_eq_ok_iff.mp hreal)
                  (checkTiming_eq_error_iff.mp hcpu)
            | ok =>
                rw [hcpu] at hrecord
                contradiction
  · rintro (⟨hsymbol, hunknown⟩ | ⟨hunit, hfault⟩ | ⟨hunit, hreal, hfault⟩)
    · have hread := unitOf_eq_error_iff.mpr ⟨_, hsymbol, hunknown, rfl⟩
      rw [record, hread]
      rfl
    · rw [record_of_unit hunit, checkTiming_eq_error_iff.mpr hfault]
      rfl
    · rw [record_of_unit hunit, checkTiming_eq_ok_iff.mpr hreal,
        checkTiming_eq_error_iff.mpr hfault]
      rfl

/-- An entry with a fault cannot be reported. -/
theorem not_reportable (hfault : FirstFault entry fault) : ¬Reportable entry := by
  intro hreportable
  obtain ⟨unit, hunit, _⟩ := id hreportable
  have hloaded := record_eq_ok_iff.mpr ⟨hreportable, (loadsAs_iff hunit).mpr rfl⟩
  rw [record_eq_error_iff.mpr hfault] at hloaded
  contradiction

/-- There is one first fault at most. -/
theorem FirstFault.unique {other : EntryFault} (hfault : FirstFault entry fault)
    (hother : FirstFault entry other) : fault = other :=
  Except.error.inj
    ((record_eq_error_iff.mpr hfault).symm.trans (record_eq_error_iff.mpr hother))

/-! ## All entries -/

/-- Entries load exactly if all of them can be reported, each as its own record. -/
theorem records_eq_ok_iff {entries : List Input.Entry} {loaded : List Record} {index : Nat} :
    records index entries = .ok loaded ↔
      (∀ entry ∈ entries, Reportable entry) ∧ List.Forall₂ LoadsAs entries loaded := by
  rw [← List.forall₂_and_left]
  induction entries generalizing index loaded with
  | nil => simp [records, eq_comm]
  | cons entry rest ih =>
      unfold records
      rw [List.forall₂_cons_left_iff]
      cases hrecord : record entry with
      | error fault =>
          have hnone : ∀ r, ¬(Reportable entry ∧ LoadsAs entry r) := by
            intro r hr
            rw [← record_eq_ok_iff, hrecord] at hr
            contradiction
          simp [hnone]
      | ok r =>
          have hsome : ∀ other, (Reportable entry ∧ LoadsAs entry other) ↔ r = other := by
            intro other
            rw [← record_eq_ok_iff, hrecord, Except.ok.injEq]
          constructor
          · intro hloaded
            obtain ⟨others, hrest, rfl⟩ := Outcome.map_eq_ok_iff.mp hloaded
            exact ⟨r, others, (hsome r).mpr rfl, ih.mp hrest, rfl⟩
          · rintro ⟨other, others, hr, hrest, rfl⟩
            obtain rfl := (hsome other).mp hr
            rw [ih.mpr hrest]
            rfl

/-- The fault of a list of entries is the one of its first entry that cannot be reported. -/
theorem records_eq_error_iff {entries : List Input.Entry} {index : Nat} {fault : LoadFault} :
    records index entries = .error fault ↔
      ∃ before entry after shown reason, entries = before ++ entry :: after ∧
        (∀ other ∈ before, Reportable other) ∧ Shows entry.name shown ∧ FirstFault entry reason ∧
        fault = .invalidEntry (index + before.length) shown reason := by
  induction entries generalizing index with
  | nil => simp [records]
  | cons entry rest ih =>
      unfold records
      cases hrecord : record entry with
      | error reason =>
          have hfirst := record_eq_error_iff.mp hrecord
          have hnot : ¬Reportable entry := not_reportable hfirst
          constructor
          · intro hloaded
            obtain rfl := Except.error.inj hloaded
            exact ⟨[], entry, rest, _, reason, rfl, by simp, shows_nameOr _, hfirst, rfl⟩
          · rintro ⟨before, bad, after, shown, other, hentries, hbefore, hshown, hbad, rfl⟩
            -- the faulty entry comes first, so none stands before the one that is reported
            cases before with
            | nil =>
                obtain ⟨rfl, rfl⟩ := List.cons.inj hentries
                obtain rfl := hfirst.unique hbad
                obtain rfl := shows_iff.mp hshown
                rfl
            | cons good before =>
                obtain ⟨rfl, _⟩ := List.cons.inj hentries
                exact absurd (hbefore _ List.mem_cons_self) hnot
      | ok r =>
          have hgood := (record_eq_ok_iff.mp hrecord).1
          rw [Outcome.map_eq_error_iff, ih]
          constructor
          · rintro ⟨before, bad, after, shown, other, rfl, hbefore, hshown, hbad, rfl⟩
            refine ⟨entry :: before, bad, after, shown, other, rfl, ?_, hshown, hbad, ?_⟩
            · exact List.forall_mem_cons.mpr ⟨hgood, hbefore⟩
            · rw [List.length_cons, Nat.add_right_comm, Nat.add_assoc]
          · rintro ⟨before, bad, after, shown, other, hentries, hbefore, hshown, hbad, rfl⟩
            cases before with
            | nil =>
                obtain ⟨rfl, _⟩ := List.cons.inj hentries
                exact absurd hgood (not_reportable hbad)
            | cons good before =>
                obtain ⟨rfl, rfl⟩ := List.cons.inj hentries
                refine ⟨before, bad, after, shown, other, rfl, ?_, hshown, hbad, ?_⟩
                · exact (List.forall_mem_cons.mp hbefore).2
                · rw [List.length_cons, Nat.add_right_comm, Nat.add_assoc]

/-! ## Documents -/

/-- The times of a record that is loaded are timings. -/
theorem LoadsAs.isTiming (hrecord : LoadsAs entry r) (hreportable : Reportable entry) :
    IsTiming r.realTime ∧ IsTiming r.cpuTime := by
  obtain ⟨unit, hunit, hreal, hcpu⟩ := hrecord.times
  rw [hreal, hcpu]
  exact (reportable_iff hunit).mp hreportable

/-- A name that is not given, or blank, is replaced by one that is not. -/
theorem Shows.canBeSeen {name : Option String} {shown : String} (hshows : Shows name shown) :
    CanBeSeen shown := by
  have hunknown : CanBeSeen "Unknown" := ⟨'U', by decide, by decide⟩
  cases hshows with
  | given hseen => exact hseen
  | blank => exact hunknown
  | absent => exact hunknown

/-- What holds of every record that was loaded. -/
theorem isTiming_and_canBeSeen {entries : List Input.Entry} {loaded : List Record}
    (hreportable : ∀ entry ∈ entries, Reportable entry)
    (hrecords : List.Forall₂ LoadsAs entries loaded) :
    ∀ r ∈ loaded, IsTiming r.realTime ∧ IsTiming r.cpuTime ∧ CanBeSeen r.name := by
  induction hrecords with
  | nil => exact fun _ hr => absurd hr List.not_mem_nil
  | cons hfirst _ ih =>
      obtain ⟨hentry, hrest⟩ := List.forall_mem_cons.mp hreportable
      obtain ⟨hreal, hcpu⟩ := hfirst.isTiming hentry
      exact List.forall_mem_cons.mpr ⟨⟨hreal, hcpu, hfirst.name.canBeSeen⟩, ih hrest⟩

variable {source : String} {document : Input.Document}

/-- A document loads exactly if all its entries can be reported. -/
theorem run_eq_ok_iff {loaded : Run} : run source document = .ok loaded ↔
    (∀ entry ∈ document.benchmarks, Reportable entry) ∧
      List.Forall₂ LoadsAs document.benchmarks loaded.records ∧
      loaded.machine = machine document.context ∧ loaded.source = source := by
  rw [run, Outcome.map_eq_ok_iff]
  constructor
  · rintro ⟨records, hrecords, rfl⟩
    obtain ⟨hreportable, hloaded⟩ := records_eq_ok_iff.mp hrecords
    exact ⟨hreportable, hloaded, rfl, rfl⟩
  · rintro ⟨hreportable, hloaded, hmachine, hsource⟩
    refine ⟨loaded.records, records_eq_ok_iff.mpr ⟨hreportable, hloaded⟩, ?_⟩
    rw [← hmachine, ← hsource]

/-- A document is refused exactly for the first fault of its first entry that has one. -/
theorem run_eq_error_iff {fault : LoadFault} : run source document = .error fault ↔
    ∃ before entry after shown reason, document.benchmarks = before ++ entry :: after ∧
      (∀ other ∈ before, Reportable other) ∧ Shows entry.name shown ∧ FirstFault entry reason ∧
      fault = .invalidEntry before.length shown reason := by
  rw [run, Outcome.map_eq_error_iff, records_eq_error_iff]
  simp only [Nat.zero_add]

/-- A document whose entries can all be reported gives a run. -/
theorem exists_run (hreportable : ∀ entry ∈ document.benchmarks, Reportable entry) :
    ∃ loaded, run source document = .ok loaded := by
  cases hrun : run source document with
  | ok loaded => exact ⟨loaded, rfl⟩
  | error fault =>
      obtain ⟨before, entry, after, _, reason, hentries, _, _, hfault, _⟩ :=
        run_eq_error_iff.mp hrun
      exact absurd (hreportable entry (by simp [hentries])) (not_reportable hfault)

/-- All timings of a run that was loaded can be reported. -/
theorem isTiming_of_ofSymbols {symbols : Json.Symbols} {loaded : Run}
    (hload : ofSymbols source symbols = .ok loaded) :
    ∀ r ∈ loaded.records, IsTiming r.realTime ∧ IsTiming r.cpuTime := by
  intro r hr
  unfold ofSymbols at hload
  split at hload
  next => contradiction
  next document _ =>
    obtain ⟨hreportable, hrecords, -⟩ := run_eq_ok_iff.mp hload
    obtain ⟨hreal, hcpu, -⟩ := isTiming_and_canBeSeen hreportable hrecords r hr
    exact ⟨hreal, hcpu⟩

/-- Loading gives a run for the whole document or one fault. A text that is no document is
malformed, whatever the entries before its fault are. A document gives a run exactly if all
its entries can be reported, with one record for each of them and in their order; otherwise
its fault is the first one of the first entry that cannot. -/
theorem ofText_whole_or_first_fault (source text : String) :
    (∀ fault, Input.Document.ofSymbols (text.toList.map some) = .error fault →
      ofText source text = .error (.malformed source fault)) ∧
    ∀ document, Input.Document.ofSymbols (text.toList.map some) = .ok document →
      ((∃ loaded, ofText source text = .ok loaded) ↔
        ∀ entry ∈ document.benchmarks, Reportable entry) ∧
      (∀ fault, ofText source text = .error fault ↔
        ∃ before entry after shown reason, document.benchmarks = before ++ entry :: after ∧
          (∀ other ∈ before, Reportable other) ∧ Shows entry.name shown ∧
          FirstFault entry reason ∧ fault = .invalidEntry before.length shown reason) ∧
      ∀ loaded, ofText source text = .ok loaded →
        loaded.source = source ∧
        loaded.records.length = document.benchmarks.length ∧
        List.Forall₂ LoadsAs document.benchmarks loaded.records ∧
        (∀ r ∈ loaded.records, IsTiming r.realTime ∧ IsTiming r.cpuTime ∧ CanBeSeen r.name) ∧
        CanBeSeen loaded.machine.hostName ∧ CanBeSeen loaded.machine.cpuName := by
  constructor
  · intro fault hfault
    rw [ofText, ofSymbols, hfault]
  · intro document hdocument
    have hrun : ofText source text = run source document := by
      rw [ofText, ofSymbols, hdocument]
    rw [hrun]
    refine ⟨⟨?_, exists_run⟩, fun _ => run_eq_error_iff, ?_⟩
    · rintro ⟨loaded, hloaded⟩
      exact (run_eq_ok_iff.mp hloaded).1
    · intro loaded hloaded
      obtain ⟨hreportable, hrecords, hmachine, hsource⟩ := run_eq_ok_iff.mp hloaded
      refine ⟨hsource, hrecords.length_eq.symm, hrecords,
        isTiming_and_canBeSeen hreportable hrecords, ?_, ?_⟩
      · rw [hmachine]
        exact (shows_nameOr _).canBeSeen
      · rw [hmachine]
        exact (shows_nameOr _).canBeSeen

/-- An entry that cannot be reported does not hide a fault of the text behind it. -/
example : ofText "run.json" "\x7b\"benchmarks\":[\x7b\"real_time\":-1\x7d,]\x7d" =
    .error (.malformed "run.json" .trailingComma) := by rfl

end TimingReport.Load
