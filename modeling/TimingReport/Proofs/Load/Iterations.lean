import TimingReport.Proofs.Json.Naturals
import TimingReport.Proofs.Load.Units
import TimingReport.Proofs.View.Iterations

/-!
# Iterations from a document to its reports

The iterations of an entry are a whole number of any length. A document is loaded with them
exactly if they have no sign and fit 64 bits; otherwise it is malformed. They are not changed on
the way: all documents of the run show the digits that were given.
-/

namespace TimingReport

open Json

/-! ## One entry of many -/

/-- Two lists that are the same but for one place, where their elements are related. -/
inductive SameBut {α : Type} (related : α → α → Prop) : Nat → List α → List α → Prop
  | here {a b : α} {rest : List α} (hrelated : related a b) :
      SameBut related 0 (a :: rest) (b :: rest)
  | behind {index : Nat} {first : α} {as bs : List α} (hsame : SameBut related index as bs) :
      SameBut related (index + 1) (first :: as) (first :: bs)

namespace SameBut

variable {α β : Type} {related : α → α → Prop} {holds : α → β → Prop} {index : Nat}
  {as bs : List α} {cs : List β}

/-- What holds of the elements of one list holds of the other, with the one element changed. -/
theorem forall₂_modify (hsame : SameBut related index as bs) {change : β → β}
    (hchange : ∀ {a b c}, related a b → holds a c → holds b (change c))
    (hholds : List.Forall₂ holds as cs) :
    List.Forall₂ holds bs (cs.modify index change) := by
  induction hsame generalizing cs with
  | here hrelated =>
      cases hholds with
      | cons hfirst hrest => exact .cons (hchange hrelated hfirst) hrest
  | behind _ ih =>
      cases hholds with
      | cons hfirst hrest => exact .cons hfirst (ih hrest)

/-- What holds of the elements of the other list holds of the related one. -/
theorem exists_of_forall₂ (hsame : SameBut related index as bs)
    (hholds : List.Forall₂ holds bs cs) :
    ∃ a b c, related a b ∧ holds b c ∧ cs[index]? = some c := by
  induction hsame generalizing cs with
  | here hrelated =>
      cases hholds with
      | cons hfirst _ => exact ⟨_, _, _, hrelated, hfirst, rfl⟩
  | behind _ ih =>
      cases hholds with
      | cons _ hrest => exact ih hrest

end SameBut

/-! ## Entries -/

namespace Input

/-- An entry, and one that has a count of iterations and is otherwise the same. -/
inductive Entry.Counted (count : Symbols) : Symbols → Symbols → Prop
  | intro {texts others : Texts} {value other : Symbols} (hvalue : Holds names texts value)
      (hother : Holds names others other) (hcount : others "iterations" = some count)
      (hsame : ∀ name ∈ names, name ≠ "iterations" → others name = texts name) :
      Counted count value other

/-- A document, and one in which the entry at the given place has a count of iterations. -/
inductive Document.Counted (index : Nat) (count : Symbols) : Symbols → Symbols → Prop
  | intro {texts others : Texts} {before value after otherBefore other otherAfter : Symbols}
      {items otherItems : List Item} {gap otherGap : Symbols}
      (hbefore : Blank before) (hafter : Blank after) (hotherBefore : Blank otherBefore)
      (hotherAfter : Blank otherAfter) (hvalue : Holds names texts value)
      (hother : Holds names others other) (hcontext : others "context" = texts "context")
      (hbenchmarks : texts "benchmarks" = some (listText items gap))
      (hotherBenchmarks : others "benchmarks" = some (listText otherItems otherGap))
      (hitems : ∀ item ∈ items, Value item.value)
      (hotherItems : ∀ item ∈ otherItems, Value item.value)
      (hgap : Blank gap) (hotherGap : Blank otherGap)
      (hentries : SameBut (Entry.Counted count) index (items.map Item.value)
        (otherItems.map Item.value)) :
      Counted index count (before ++ (value ++ after)) (otherBefore ++ (other ++ otherAfter))

/-! ## Written documents -/

theorem Entry.counted_written {count other : List Char} {members : List (String × List Char)}
    (hnodup : ("iterations" :: members.map Prod.fst).Nodup) (hcount : Value (count.map some))
    (hother : Value (other.map some)) (hmembers : ∀ m ∈ members, Value (m.2.map some)) :
    Counted (count.map some) ((Write.object (("iterations", other) :: members)).map some)
      ((Write.object (("iterations", count) :: members)).map some) := by
  refine .intro (holds_object names hnodup (List.forall_mem_cons.mpr ⟨hother, hmembers⟩))
    (holds_object names hnodup (List.forall_mem_cons.mpr ⟨hcount, hmembers⟩)) rfl ?_
  intro name _ hname
  have hkey : (name == "iterations") = false := by simpa using hname
  rw [Write.texts, Write.texts, List.lookup_cons, List.lookup_cons, hkey]

theorem Document.counted_benchmarks {index : Nat} {count : Symbols}
    {values others : List (List Char)} (hvalues : ∀ value ∈ values, Value (value.map some))
    (hothers : ∀ other ∈ others, Value (other.map some))
    (hentries : SameBut (Entry.Counted count) index (values.map (List.map some))
      (others.map (List.map some))) :
    Counted index count ((Write.object [("benchmarks", Write.list values)]).map some)
      ((Write.object [("benchmarks", Write.list others)]).map some) := by
  have hlist : ∀ values, Write.texts [("benchmarks", Write.list values)] "benchmarks" =
      some (listText (values.map fun value => .bare (value.map some)) []) :=
    fun values => congrArg some (map_some_list values)
  have hitems : ∀ values : List (List Char),
      (values.map fun value => Item.bare (value.map some)).map Item.value =
        values.map (List.map some) := by
    intro values
    rw [List.map_map]
    rfl
  have hdocument := Counted.intro blank_nil blank_nil blank_nil blank_nil
    (holds_benchmarks hvalues) (holds_benchmarks hothers) rfl (hlist values) (hlist others)
    (List.forall_mem_map.mpr hvalues) (List.forall_mem_map.mpr hothers) blank_nil blank_nil
    (by rwa [hitems, hitems])
  simpa only [List.nil_append, List.append_nil] using hdocument

/-! ## What is read -/

variable {digits : List Char} {negative : Bool}

/-- A whole number is read as a count if it has no sign and fits 64 bits. -/
theorem readsField_count64_iff (hdigits : Whole (digits.map some)) {count : Option UInt64} :
    ReadsField count64 (some (signed negative (digits.map some))) count ↔
      negative = false ∧ Decimal.count digits < 2 ^ 64 ∧
        count = some (.ofNat (Decimal.count digits)) := by
  rw [ReadsField, reads_optional_iff (value_signed hdigits) (signed_ne_null hdigits)]
  have hbits : Nat.pow 2 64 ≤ maxCount + 1 := by decide
  have hreads : ∀ c, Reads count64 (signed negative (digits.map some)) c ↔
      ∃ n, (negative = false ∧ n = Decimal.count digits ∧ n < 2 ^ 64) ∧ UInt64.ofNat n = c := by
    intro c
    refine ((local_natural 64).reads_map_iff (value_signed hdigits)).trans ?_
    simp only [reads_natural_signed_iff hdigits hbits, wholeValue_map_some]
    rfl
  simp only [hreads]
  constructor
  · rintro ⟨_, ⟨_, ⟨hsign, rfl, hfits⟩, rfl⟩, rfl⟩
    exact ⟨hsign, hfits, rfl⟩
  · rintro ⟨hsign, hfits, rfl⟩
    exact ⟨_, ⟨_, ⟨hsign, rfl, hfits⟩, rfl⟩, rfl⟩

end Input

namespace Load

variable {digits : List Char} {negative : Bool} {index : Nat} {source : String}
  {s other : Symbols} {run : Run}

/-- The record with a count of iterations. -/
def counted (count : UInt64) (record : Record) : Record := { record with iterations := count }

theorem loads_counted {count value : Symbols} {n : UInt64}
    (hcount : ReadsField Input.count64 (some count) (some n))
    (hentry : Input.Entry.Counted count value other) {r : Record} (hloads : Loads value r) :
    Loads other (counted n r) := by
  obtain ⟨hvalue, hother, hiterations, hsame⟩ := hentry
  obtain ⟨⟨hname, -, hitems⟩, hunit⟩ := (loads_iff hvalue).mp hloads
  rw [← hsame _ (by decide) (by decide)] at hname hitems
  refine (loads_iff hother).mpr ⟨⟨hname, ⟨_, hiterations ▸ hcount, rfl⟩, hitems⟩, ?_⟩
  rw [hsame "time_unit" (by decide) (by decide), hsame "real_time" (by decide) (by decide),
    hsame "cpu_time" (by decide) (by decide)]
  exact hunit

/-- If a document is read at all, the iterations are read as a count. -/
theorem exists_count_of_ofSymbols {count : Symbols}
    (hcounted : Input.Document.Counted index count s other) {document : Input.Document}
    (hdocument : Input.Document.ofSymbols other = .ok document) :
    ∃ iterations, ReadsField Input.count64 (some count) iterations := by
  obtain ⟨-, -, hbefore, hafter, -, hother, -, -, hbenchmarks, -, hitems, -, hgap, hentries⟩ :=
    hcounted
  obtain ⟨-, hreads⟩ := (Input.Document.ofSymbols_eq_ok_iff_items hbefore hafter hother
    hbenchmarks hitems hgap).mp hdocument
  rw [← List.forall₂_map_left_iff (f := Item.value)] at hreads
  obtain ⟨_, _, entry, ⟨-, hother, hcount, -⟩, hentry, -⟩ := hentries.exists_of_forall₂ hreads
  have hiterations := ((Input.Entry.reads_iff hother).mp hentry).iterations
  exact ⟨entry.iterations, hcount ▸ hiterations⟩

/-- A document that is loaded is loaded with any count of iterations, too. -/
theorem ofSymbols_counted {count : Symbols} {n : UInt64}
    (hcounted : Input.Document.Counted index count s other)
    (hcount : ReadsField Input.count64 (some count) (some n))
    (hloaded : ofSymbols source s = .ok run) :
    ofSymbols source other =
        .ok { run with records := run.records.modify index (counted n) } ∧
      ∃ r, (run.records.modify index (counted n))[index]? = some (counted n r) := by
  obtain ⟨hbefore, hafter, hotherBefore, hotherAfter, hvalue, hother, hcontext, hbenchmarks,
    hotherBenchmarks, hitems, hotherItems, hgap, hotherGap, hentries⟩ := hcounted
  obtain ⟨hmachine, hrecords, hsource⟩ :=
    (ofSymbols_eq_ok_iff_loads hbefore hafter hvalue hbenchmarks hitems hgap).mp hloaded
  rw [← List.forall₂_map_left_iff (f := Item.value)] at hrecords
  have hothers := hentries.forall₂_modify
    (fun hentry hloads => loads_counted hcount hentry hloads) hrecords
  obtain ⟨_, _, _, -, -, hindex⟩ := hentries.exists_of_forall₂ hothers
  constructor
  · rw [List.forall₂_map_left_iff] at hothers
    refine (ofSymbols_eq_ok_iff_loads hotherBefore hotherAfter hother hotherBenchmarks hotherItems
      hotherGap).mpr ⟨?_, hothers, hsource⟩
    rwa [hcontext]
  · obtain ⟨r, -, rfl⟩ := Option.map_eq_some_iff.mp
      ((List.getElem?_modify_eq (counted n) index run.records).symm.trans hindex)
    exact ⟨r, hindex⟩

/-- Iterations are exact from the document to its reports. When an entry of a document that is
loaded is given a whole number as its iterations instead, the document is loaded exactly if the
number has no sign and is at most `2 ^ 64 - 1`; otherwise it is malformed. The run that is loaded
has the number in the record of that entry and is the same in all else, and its documents show
the digits as they are given: bare in the CSV document and in groups of three in the others. -/
theorem ofSymbols_iterations (hdigits : Whole (digits.map some))
    (hcounted : Input.Document.Counted index (signed negative (digits.map some)) s other)
    (hloaded : ofSymbols source s = .ok run) :
    ((∃ loaded, ofSymbols source other = .ok loaded) ↔
      negative = false ∧ Decimal.count digits ≤ 2 ^ 64 - 1) ∧
    (¬(negative = false ∧ Decimal.count digits ≤ 2 ^ 64 - 1) →
      ∃ fault, ofSymbols source other = .error (.malformed source fault)) ∧
    ∀ loaded, ofSymbols source other = .ok loaded →
      loaded = { run with
        records := run.records.modify index (counted (.ofNat (Decimal.count digits))) } ∧
      ∃ record, loaded.records[index]? = some record ∧
        record.iterations.toNat = Decimal.count digits ∧
        ∀ (table : RuleTable) (title : String) (now : Timestamp),
          (View.ofRun loaded table title now).ShowsIterations record digits := by
  have hreads := @Input.readsField_count64_iff digits negative hdigits
  cases hdocument : Input.Document.ofSymbols other with
  | error fault =>
      have hmalformed : ofSymbols source other = .error (.malformed source fault) := by
        rw [ofSymbols, hdocument]
      have hnone : ∀ loaded, ofSymbols source other ≠ .ok loaded := by simp [hmalformed]
      refine ⟨iff_of_false (not_exists.mpr hnone) ?_, fun _ => ⟨fault, hmalformed⟩,
        fun loaded hload => absurd hload (hnone loaded)⟩
      rintro ⟨hsign, hfits⟩
      have hcount := hreads.mpr ⟨hsign, by omega, rfl⟩
      exact hnone _ (ofSymbols_counted hcounted hcount hloaded).1
  | ok document =>
      obtain ⟨_, hcount⟩ := exists_count_of_ofSymbols hcounted hdocument
      obtain ⟨hsign, hfits, rfl⟩ := hreads.mp hcount
      have hbound : negative = false ∧ Decimal.count digits ≤ 2 ^ 64 - 1 := ⟨hsign, by omega⟩
      obtain ⟨hload, r, hrecord⟩ := ofSymbols_counted hcounted hcount hloaded
      refine ⟨iff_of_true ⟨_, hload⟩ hbound, fun hnot => absurd hbound hnot, ?_⟩
      intro loaded hother
      obtain rfl := Except.ok.inj (hload.symm.trans hother)
      have hvalue : (UInt64.ofNat (Decimal.count digits)).toNat = Decimal.count digits :=
        UInt64.toNat_ofNat_of_lt' hfits
      refine ⟨rfl, _, hrecord, hvalue, fun table title now => ?_⟩
      refine View.showsIterations_ofRun _ table title now (List.mem_of_getElem? hrecord) ?_
      exact (congrArg Decimal.digits hvalue).trans (digits_count_of_whole hdigits)

/-- The greatest count is loaded and shown, and the next number is malformed. -/
theorem ofSymbols_iterations_greatest :
    let text := "\x7b\"benchmarks\":[\x7b\"name\":\"a\"\x7d," ++
      "\x7b\"iterations\":1,\"real_time\":2\x7d]\x7d"
    let greatest := "\x7b\"benchmarks\":[\x7b\"name\":\"a\"\x7d," ++
      "\x7b\"iterations\":18446744073709551615,\"real_time\":2\x7d]\x7d"
    let next := "\x7b\"benchmarks\":[\x7b\"name\":\"a\"\x7d," ++
      "\x7b\"iterations\":18446744073709551616,\"real_time\":2\x7d]\x7d"
    let record : Record := {
      name := unknownName, realTime := .ofNat 2, iterations := 18446744073709551615 }
    (∃ run, ofText "run.json" text = .ok run) ∧
      (∃ run, ofText "run.json" greatest = .ok run ∧ run.records[1]? = some record ∧
        (View.ofRun run .standard View.standardTitle ⟨2024, 5, 1, 12, 0, 0, 0⟩).ShowsIterations
          record "18446744073709551615".toList) ∧
      ∃ fault, ofText "run.json" next = .error (.malformed "run.json" fault) := by
  intro text greatest next record
  let run : Run := {
    records := [{ name := "a", realTime := .zero false },
      { name := unknownName, realTime := .ofNat 2, iterations := 1 }]
    source := "run.json" }
  let first := Write.object [("name", Write.string "a")]
  let entry (n : Nat) :=
    Write.object [("iterations", Write.natural n), ("real_time", Write.natural 2)]
  let document (n : Nat) := Write.object [("benchmarks", Write.list [first, entry n])]
  have hnumber (n : Nat) : Value ((Write.natural n).map some) := .unsigned (unsigned_natural n)
  have hfirst : Value (first.map some) :=
    (holds_object [] (by simp) (List.forall_mem_singleton.mpr (written_string "a").value)).value
  have hentry (n : Nat) : Value ((entry n).map some) :=
    (holds_object [] (by simp) (List.forall_mem_cons.mpr
      ⟨hnumber n, List.forall_mem_singleton.mpr (hnumber 2)⟩)).value
  have hcounted (n : Nat) : Input.Document.Counted 1 ((Write.natural n).map some)
      (text.toList.map some) ((document n).map some) := by
    have htext : text.toList = document 1 := by decide +kernel
    rw [htext]
    refine Input.Document.counted_benchmarks
      (List.forall_mem_cons.mpr ⟨hfirst, List.forall_mem_singleton.mpr (hentry 1)⟩)
      (List.forall_mem_cons.mpr ⟨hfirst, List.forall_mem_singleton.mpr (hentry n)⟩)
      (.behind (.here ?_))
    exact Input.Entry.counted_written (by decide) (hnumber n) (hnumber 1)
      (List.forall_mem_singleton.mpr (hnumber 2))
  have hload : (ofText "run.json" text).toOption = some run := by decide +kernel
  have hload := Outcome.toOption_eq_some_iff.mp hload
  have hexact (n : Nat) := @ofSymbols_iterations (Decimal.digits n) false _ _ _ _ _
    (whole_digits n) (hcounted n) hload
  refine ⟨⟨run, hload⟩, ?_, ?_⟩
  · have hgreatest : greatest.toList = document 18446744073709551615 := by decide +kernel
    have hdigits : "18446744073709551615".toList = Decimal.digits 18446744073709551615 := by
      decide +kernel
    obtain ⟨hloads, -, hshown⟩ := hexact 18446744073709551615
    rw [Decimal.count_digits] at hloads hshown
    obtain ⟨loaded, hloaded⟩ := hloads.mpr ⟨rfl, by decide⟩
    obtain ⟨rfl, shown, hrecord, -, hdocuments⟩ := hshown loaded hloaded
    obtain rfl : record = shown := Option.some.inj hrecord
    rw [ofText, hgreatest, hdigits]
    exact ⟨_, hloaded, hrecord, hdocuments _ _ _⟩
  · have hnext : next.toList = document 18446744073709551616 := by decide +kernel
    obtain ⟨-, hmalformed, -⟩ := hexact 18446744073709551616
    rw [Decimal.count_digits] at hmalformed
    rw [ofText, hnext]
    exact hmalformed (by decide)

end Load

end TimingReport
