import TimingReport.Job
import TimingReport.Proofs.Json.Forms
import TimingReport.Proofs.Json.Integers
import TimingReport.Proofs.Load.Texts
import TimingReport.Proofs.Load.Written
import TimingReport.Proofs.Timings.Arithmetic

/-!
# Units of time

The unit in which the times of an entry are written does not matter. Whole numbers of it are
read exactly, and scaling them to nanoseconds is exact, too, as long as the result is a binary64
number. So the same run is loaded when entries are written in nanoseconds instead.
-/

namespace TimingReport

open Json

namespace Input

open Load (factor)

/-! ## Entries in nanoseconds -/

/-- The text of a unit; one that is absent or `null` stands for nanoseconds. -/
inductive NamesUnit : Option Symbols → TimeUnit → Prop
  | absent : NamesUnit none .nanoseconds
  | null : NamesUnit (some nullText) .nanoseconds
  | symbol {body : Symbols} {unit : TimeUnit} (hspells : Spells body (symbol unit).toList) :
      NamesUnit (some (stringText body)) unit

/-- The texts of an entry whose times are whole numbers of a unit. -/
structure Entry.TimedIn (unit : TimeUnit) (realTime cpuTime : Int) (texts : Texts) : Prop where
  realTime : texts "real_time" = some ((Write.integer realTime).map some)
  cpuTime : texts "cpu_time" = some ((Write.integer cpuTime).map some)
  timeUnit : NamesUnit (texts "time_unit") unit

/-- An entry and itself, or the same entry with its times in nanoseconds. -/
inductive Entry.Rescaled : Symbols → Symbols → Prop
  | same (value : Symbols) : Rescaled value value
  | nanoseconds {unit : TimeUnit} {realTime cpuTime : Int} {texts others : Texts}
      {value other : Symbols} (hreal : realTime * factor unit ≤ 2 ^ 53)
      (hcpu : cpuTime * factor unit ≤ 2 ^ 53)
      (hvalue : Holds names texts value) (htimed : TimedIn unit realTime cpuTime texts)
      (hother : Holds names others other)
      (hothers : TimedIn .nanoseconds (realTime * factor unit) (cpuTime * factor unit) others)
      (hname : others "name" = texts "name")
      (hiterations : others "iterations" = texts "iterations")
      (hitems : others "items_per_second" = texts "items_per_second") : Rescaled value other

/-- A document, and one in which any of its entries have their times in nanoseconds. -/
inductive Document.Rescaled : Symbols → Symbols → Prop
  | intro {texts others : Texts} {before value after : Symbols}
      {otherBefore other otherAfter : Symbols} {benchmarks otherBenchmarks : Symbols}
      (hbefore : Blank before) (hafter : Blank after) (hotherBefore : Blank otherBefore)
      (hotherAfter : Blank otherAfter) (hvalue : Holds names texts value)
      (hother : Holds names others other) (hcontext : others "context" = texts "context")
      (hbenchmarks : texts "benchmarks" = some benchmarks)
      (hotherBenchmarks : others "benchmarks" = some otherBenchmarks)
      (hentries : ListAlike Entry.Rescaled benchmarks otherBenchmarks) :
      Rescaled (before ++ (value ++ after)) (otherBefore ++ (other ++ otherAfter))

/-! ## Written entries -/

theorem namesUnit_string (unit : TimeUnit) :
    NamesUnit (some ((Write.string (symbol unit)).map some)) unit := by
  rw [map_some_string]
  exact .symbol (spells_escaped _)

/-- The members of an entry that gives nothing but its times. -/
def Entry.timedMembers (unit : TimeUnit) (realTime cpuTime : Int) : List (String × List Char) := [
  ("real_time", Write.integer realTime),
  ("cpu_time", Write.integer cpuTime),
  ("time_unit", Write.string (symbol unit))]

theorem Entry.holds_timedMembers (unit : TimeUnit) (realTime cpuTime : Int) :
    Holds names (Write.texts (timedMembers unit realTime cpuTime))
      ((Write.object (timedMembers unit realTime cpuTime)).map some) := by
  refine holds_object _ (by simp [timedMembers]) ?_
  simp only [timedMembers, List.forall_mem_cons]
  exact ⟨value_integer _, value_integer _, (written_string _).value, List.forall_mem_nil _⟩

/-- There are entries of every unit and of all times. -/
theorem Entry.rescaled_timedMembers {unit : TimeUnit} {realTime cpuTime : Int}
    (hreal : realTime * factor unit ≤ 2 ^ 53) (hcpu : cpuTime * factor unit ≤ 2 ^ 53) :
    Rescaled ((Write.object (timedMembers unit realTime cpuTime)).map some)
      ((Write.object (timedMembers .nanoseconds (realTime * factor unit)
        (cpuTime * factor unit))).map some) :=
  .nanoseconds hreal hcpu (holds_timedMembers unit realTime cpuTime)
    ⟨rfl, rfl, namesUnit_string unit⟩ (holds_timedMembers _ _ _)
    ⟨rfl, rfl, namesUnit_string .nanoseconds⟩ rfl rfl rfl

theorem Document.holds_benchmarks {values : List (List Char)}
    (hvalues : ∀ value ∈ values, Value (value.map some)) :
    Holds names (Write.texts [("benchmarks", Write.list values)])
      ((Write.object [("benchmarks", Write.list values)]).map some) := by
  refine holds_object _ (List.nodup_singleton _) (List.forall_mem_singleton.mpr ?_)
  rw [map_some_list]
  exact .list blank_nil (List.forall_mem_map.mpr hvalues)

/-- A written document is rescaled entry by entry. -/
theorem Document.rescaled_benchmarks {values others : List (List Char)}
    (hvalues : ∀ value ∈ values, Value (value.map some))
    (hothers : ∀ other ∈ others, Value (other.map some))
    (hrescaled : List.Forall₂ (fun value other =>
      Entry.Rescaled (value.map some) (other.map some)) values others) :
    Rescaled ((Write.object [("benchmarks", Write.list values)]).map some)
      ((Write.object [("benchmarks", Write.list others)]).map some) := by
  have hlists : ListAlike Entry.Rescaled ((Write.list values).map some)
      ((Write.list others).map some) := listAlike_written hvalues hothers hrescaled
  have hdocument := Rescaled.intro blank_nil blank_nil blank_nil blank_nil
    (holds_benchmarks hvalues) (holds_benchmarks hothers) rfl rfl rfl hlists
  simpa only [List.nil_append, List.append_nil] using hdocument

end Input

namespace Load

/-! ## Texts of times -/

theorem factor_pos (unit : TimeUnit) : 0 < factor unit := by
  cases unit <;> decide

theorem loadsUnit_iff {text : Option Symbols} {unit other : TimeUnit}
    (hunit : Input.NamesUnit text unit) : LoadsUnit text other ↔ other = unit := by
  cases hunit with
  | absent =>
      constructor
      · rintro ⟨_, rfl, hother⟩
        exact hother
      · rintro rfl
        exact ⟨none, rfl, rfl⟩
  | null =>
      constructor
      · rintro ⟨symbol, hreads, hother⟩
        obtain rfl := (reads_optional_null Json.text).unique hreads
        exact hother
      · rintro rfl
        exact ⟨none, reads_optional_null Json.text, rfl⟩
  | @symbol body unit hspells =>
      have hreads : Reads (optional Json.text) (stringText body) (some (Input.symbol unit)) :=
        (reads_optional_iff (.string hspells.body) (by simp [stringText, nullText])).mpr
          ⟨_, (reads_text_iff hspells.body).mpr hspells, rfl⟩
      constructor
      · rintro ⟨symbol, hsymbol, hother⟩
        obtain rfl := hreads.unique hsymbol
        exact hother.unique (isSymbol_symbol unit)
      · rintro rfl
        exact ⟨_, hreads, isSymbol_symbol other⟩

/-- A number of one or more below zero is no timing in any unit. -/
theorem not_isTiming_neg_mul {x y : Binary64} (hx : x.FromOne) (hy : y.FromOne)
    (hsign : x.negative = y.negative) : ¬IsTiming (-x * y) := by
  intro htiming
  obtain ⟨hproduct, hnegative⟩ := hx.neg.mul hy
  rw [Binary64.negative_neg, hsign, Bool.not_bne_self] at hnegative
  have hzero := htiming.units_of_negative hnegative
  exact absurd hzero (Nat.ne_of_gt (Binary64.unit_pos.trans_le hproduct.le))

/-- A whole number of a unit is loaded as its nanoseconds, and a negative one is refused. -/
theorem loadsTime_integer_iff {unit : TimeUnit} {time : Int} {x : Binary64}
    (htime : time * factor unit ≤ 2 ^ 53) :
    LoadsTime unit (some ((Write.integer time).map some)) x ↔
      0 ≤ time ∧ x = .ofNat (time * factor unit).toNat := by
  cases time with
  | ofNat n =>
      have hscaled : n * factor unit ≤ Binary64.maxWhole := by
        rw [Int.ofNat_eq_natCast] at htime
        exact_mod_cast htime
      have hn : n ≤ Binary64.maxWhole :=
        (Nat.le_mul_of_pos_right n (factor_pos unit)).trans hscaled
      have hreads := (written_real (hn.trans (by decide))).optional.reads
      have hscale : scaled unit (some (.ofNat n)) = .ofNat (n * factor unit) :=
        Binary64.ofNat_mul_ofNat hn (factor_le unit)
      constructor
      · rintro ⟨given, hgiven, -, rfl⟩
        obtain rfl := hreads.unique hgiven
        exact ⟨Int.natCast_nonneg n, hscale⟩
      · rintro ⟨-, rfl⟩
        refine ⟨_, hreads, ?_, hscale.symm⟩
        rw [hscale]
        exact isTiming_ofNat (hscaled.trans Binary64.maxWhole_le)
  | negSucc n =>
      constructor
      · rintro ⟨given, hgiven, htiming, -⟩
        obtain ⟨read, hread, rfl⟩ := (reads_optional_iff (value_integer (.negSucc n))
          (by simp [Write.integer, nullText])).mp hgiven
        obtain ⟨x, hone, hsign, rfl⟩ := reads_real_negative (Nat.succ_pos n) hread
        exact absurd htiming
          (not_isTiming_neg_mul hone (Binary64.fromOne_ofNat (factor_pos unit)) hsign)
      · rintro ⟨hnonneg, -⟩
        exact absurd (Int.negSucc_lt_zero n) (Int.not_lt.mpr hnonneg)

/-! ## Entries and documents -/

theorem loads_timedIn_iff {unit : TimeUnit} {realTime cpuTime : Int} {texts : Texts}
    {value : Symbols} {r : Record} (hreal : realTime * factor unit ≤ 2 ^ 53)
    (hcpu : cpuTime * factor unit ≤ 2 ^ 53) (hvalue : Holds Input.Entry.names texts value)
    (htimed : Input.Entry.TimedIn unit realTime cpuTime texts) :
    Loads value r ↔ LoadsUntimed texts r ∧
      (0 ≤ realTime ∧ r.realTime = .ofNat (realTime * factor unit).toNat) ∧
      0 ≤ cpuTime ∧ r.cpuTime = .ofNat (cpuTime * factor unit).toNat := by
  simp only [loads_iff hvalue, htimed.realTime, htimed.cpuTime, loadsUnit_iff htimed.timeUnit,
    exists_eq_left, loadsTime_integer_iff hreal, loadsTime_integer_iff hcpu]

theorem LoadsUntimed.of_eq {texts others : Texts} {r : Record} (hloads : LoadsUntimed texts r)
    (hname : others "name" = texts "name") (hiterations : others "iterations" = texts "iterations")
    (hitems : others "items_per_second" = texts "items_per_second") : LoadsUntimed others r where
  name := by
    rw [hname]
    exact hloads.name
  iterations := by
    rw [hiterations]
    exact hloads.iterations
  itemsPerSecond := by
    rw [hitems]
    exact hloads.itemsPerSecond

theorem loads_rescaled_iff {value other : Symbols} (hrescaled : Input.Entry.Rescaled value other)
    (r : Record) : Loads value r ↔ Loads other r := by
  cases hrescaled with
  | same => rfl
  | @nanoseconds unit realTime cpuTime texts others _ _ hreal hcpu hvalue htimed hother hothers
      hname hiterations hitems =>
      have huntimed : LoadsUntimed texts r ↔ LoadsUntimed others r :=
        ⟨fun hloads => hloads.of_eq hname hiterations hitems,
          fun hloads => hloads.of_eq hname.symm hiterations.symm hitems.symm⟩
      have hone : ((factor .nanoseconds : Nat) : Int) = 1 := rfl
      have hpos : (0 : Int) < factor unit := by exact_mod_cast factor_pos unit
      rw [loads_timedIn_iff hreal hcpu hvalue htimed,
        loads_timedIn_iff (by rwa [hone, mul_one]) (by rwa [hone, mul_one]) hother hothers,
        huntimed, hone, mul_one, mul_one, mul_nonneg_iff_of_pos_right hpos,
        mul_nonneg_iff_of_pos_right hpos]

theorem ofSymbols_rescaled_iff {source : String} {s other : Symbols}
    (hrescaled : Input.Document.Rescaled s other) (loaded : Run) :
    ofSymbols source s = .ok loaded ↔ ofSymbols source other = .ok loaded := by
  obtain ⟨hbefore, hafter, hotherBefore, hotherAfter, hvalue, hother, hcontext, hbenchmarks,
    hotherBenchmarks, hentries⟩ := hrescaled
  obtain ⟨hitems, hgap, hothers, hotherGap, hrescaled⟩ := hentries
  rw [ofSymbols_eq_ok_iff_loads hbefore hafter hvalue hbenchmarks hitems hgap,
    ofSymbols_eq_ok_iff_loads hotherBefore hotherAfter hother hotherBenchmarks hothers hotherGap,
    hcontext, forall₂_congr_left (fun hentry => loads_rescaled_iff hentry) hrescaled]

/-! ## Runs and documents -/

/-- The unit of time that was chosen does not matter. The same run is loaded when any of the
entries are given in nanoseconds, with or without a unit, so long as their nanoseconds are not
above `2 ^ 53`; and all documents of the run are the same. -/
theorem ofText_rescaled {text other : String}
    (hrescaled : Input.Document.Rescaled (text.toList.map some) (other.toList.map some))
    (source : String) :
    (ofText source text).toOption = (ofText source other).toOption ∧
      ∀ (job : Job) (now : Timestamp),
        (ofText source text).toOption.map (job.document · now) =
          (ofText source other).toOption.map (job.document · now) := by
  have hrun : (ofText source text).toOption = (ofText source other).toOption := by
    refine Option.ext fun loaded => ?_
    rw [Outcome.toOption_eq_some_iff, Outcome.toOption_eq_some_iff]
    exact ofSymbols_rescaled_iff hrescaled loaded
  exact ⟨hrun, fun job now => congrArg (Option.map (job.document · now)) hrun⟩

/-- The first of two entries is put into nanoseconds. -/
theorem ofText_rescaled_mixed :
    let text := "\x7b\"benchmarks\":[" ++
      "\x7b\"real_time\":20,\"cpu_time\":3,\"time_unit\":\"us\"\x7d," ++
      "\x7b\"real_time\":5,\"cpu_time\":4,\"time_unit\":\"ms\"\x7d]\x7d"
    let other := "\x7b\"benchmarks\":[" ++
      "\x7b\"real_time\":20000,\"cpu_time\":3000,\"time_unit\":\"ns\"\x7d," ++
      "\x7b\"real_time\":5,\"cpu_time\":4,\"time_unit\":\"ms\"\x7d]\x7d"
    let run : Run := {
      machine := {}
      records := [
        { name := unknownName, realTime := .ofNat 20_000, cpuTime := .ofNat 3_000 },
        { name := unknownName, realTime := .ofNat 5_000_000, cpuTime := .ofNat 4_000_000 }]
      source := "results.json" }
    Input.Document.Rescaled (text.toList.map some) (other.toList.map some) ∧
      ofText "results.json" text = .ok run ∧ ofText "results.json" other = .ok run := by
  intro text other run
  have hrescaled : Input.Document.Rescaled (text.toList.map some) (other.toList.map some) := by
    have hvalue := fun unit realTime cpuTime =>
      (Input.Entry.holds_timedMembers unit realTime cpuTime).value
    have hfirst := @Input.Entry.rescaled_timedMembers .microseconds 20 3 (by decide) (by decide)
    have hdocument := Input.Document.rescaled_benchmarks
      (List.forall_mem_cons.mpr ⟨hvalue _ 20 3, List.forall_mem_singleton.mpr (hvalue _ 5 4)⟩)
      (List.forall_mem_cons.mpr
        ⟨hvalue _ 20000 3000, List.forall_mem_singleton.mpr (hvalue .milliseconds 5 4)⟩)
      (.cons hfirst (.cons (.same _) .nil))
    have htext : text.toList = Write.object [("benchmarks", Write.list
        [Write.object (Input.Entry.timedMembers .microseconds 20 3),
          Write.object (Input.Entry.timedMembers .milliseconds 5 4)])] := by decide +kernel
    have hother : other.toList = Write.object [("benchmarks", Write.list
        [Write.object (Input.Entry.timedMembers .nanoseconds 20000 3000),
          Write.object (Input.Entry.timedMembers .milliseconds 5 4)])] := by decide +kernel
    rw [htext, hother]
    exact hdocument
  have hload : (ofText "results.json" text).toOption = some run := by decide +kernel
  have hother := (ofText_rescaled hrescaled "results.json").1.symm.trans hload
  exact ⟨hrescaled, Outcome.toOption_eq_some_iff.mp hload, Outcome.toOption_eq_some_iff.mp hother⟩

end Load

end TimingReport
