import TimingReport.Proofs.Json.Forms
import TimingReport.Proofs.Load.Alike
import TimingReport.Proofs.Load.Texts

/-!
# Forms of records in a document

The document, its context, the processor in it and every benchmark may each be written as an
object or as a list of their first fields. The form of any of them does not matter. The document
itself needs both of its fields, so a list that is shorter is refused.
-/

namespace TimingReport

open Json

namespace Input

/-! ## Documents in another form -/

/-- The context with the processor in either form. -/
def Context.forms : Shape where
  names := shape.names
  mayLack := shape.mayLack
  alike name value other := name = "cpu_info" ∧ FormAlike Cpu.shape value other

/-- The same entry, possibly in the other form. -/
def Entry.Reformed (entry other : Symbols) : Prop :=
  entry = other ∨ FormAlike shape entry other

/-- The document with the context and any of the benchmarks in either form. -/
def Document.forms : Shape where
  names := shape.names
  mayLack := shape.mayLack
  alike name value other :=
    name = "context" ∧ FormAlike Context.forms value other ∨
      name = "benchmarks" ∧ ListAlike Entry.Reformed value other

/-- A document with some of its records in their other form. -/
inductive Document.Reformed : Symbols → Symbols → Prop
  | intro {before value after otherBefore other otherAfter : Symbols} (hbefore : Blank before)
      (hafter : Blank after) (hotherBefore : Blank otherBefore) (hotherAfter : Blank otherAfter)
      (halike : FormAlike Document.forms value other) :
      Document.Reformed (before ++ (value ++ after)) (otherBefore ++ (other ++ otherAfter))

/-! ## Written documents -/

/-- A context with nothing but its processor, as a list and as an object. -/
theorem Context.formAlike_cpu {cpu other : List Char}
    (hcpu : FormAlike Cpu.shape (cpu.map some) (other.map some)) :
    FormAlike forms ((Write.list [['n', 'u', 'l', 'l'], cpu]).map some)
      ((Write.object [("cpu_info", other)]).map some) := by
  obtain ⟨hvalue, hother, -⟩ := id hcpu
  refine formAlike_written (by decide) (Nat.le_succ 2) ?values (by simp) ?members ?fields
  case values => exact List.forall_mem_cons.mpr ⟨.null, List.forall_mem_singleton.mpr hvalue.value⟩
  case members => exact List.forall_mem_singleton.mpr hother.value
  case fields =>
    simp only [forms, shape, List.forall_mem_cons]
    exact ⟨.removed (by decide), .value ⟨rfl, hcpu⟩, .same none, List.forall_mem_nil _⟩

/-- A document with a context, as a list and as an object. -/
theorem Document.reformed_written {context otherContext : List Char}
    {entries others : List (List Char)}
    (hcontext : FormAlike Context.forms (context.map some) (otherContext.map some))
    (hentries : ∀ entry ∈ entries, Value (entry.map some))
    (hothers : ∀ other ∈ others, Value (other.map some))
    (halike : List.Forall₂ (fun entry other => Entry.Reformed (entry.map some) (other.map some))
      entries others) :
    Reformed ((Write.list [context, Write.list entries]).map some)
      ((Write.object [("context", otherContext), ("benchmarks", Write.list others)]).map some) := by
  have hlists : ListAlike Entry.Reformed ((Write.list entries).map some)
      ((Write.list others).map some) := listAlike_written hentries hothers halike
  obtain ⟨hvalue, hother, -⟩ := id hcontext
  have hforms : FormAlike forms ((Write.list [context, Write.list entries]).map some)
      ((Write.object [("context", otherContext), ("benchmarks", Write.list others)]).map
        some) := by
    refine formAlike_written (by decide) (Nat.le_refl 2) ?values (by simp) ?members ?fields
    case values =>
      exact List.forall_mem_cons.mpr
        ⟨hvalue.value, List.forall_mem_singleton.mpr (value_list hentries)⟩
    case members =>
      exact List.forall_mem_cons.mpr
        ⟨hother.value, List.forall_mem_singleton.mpr (value_list hothers)⟩
    case fields =>
      simp only [forms, shape, List.forall_mem_cons]
      exact ⟨.value (.inl ⟨rfl, hcontext⟩), .value (.inr ⟨rfl, hlists⟩), List.forall_mem_nil _⟩
  have hdocument := Reformed.intro blank_nil blank_nil blank_nil blank_nil hforms
  simpa only [List.nil_append, List.append_nil] using hdocument

/-! ## What is read -/

theorem blurs_record_form {σ : Type} {slots : List (Slot σ)} {shape : Shape} {empty : σ}
    (hlawful : Lawful slots) (hfits : shape.Fits slots empty) (wanted : String) :
    Blurs (record wanted (slots.map Slot.field) empty) (FormAlike shape) := by
  intro value other halike r
  obtain ⟨hvalue, hother, hfields⟩ := halike
  rw [hfits.names] at hvalue hother
  rw [reads_record_iff_sets hlawful hvalue, reads_record_iff_sets hlawful hother]
  exact FormAlike.sets_iff hlawful hfits hfields

theorem Context.fits_forms : forms.Fits slots {} where
  names := fits.names
  mayLack := fits.mayLack
  nullable := fits.nullable
  blurs := by
    simp only [slots, List.forall_mem_cons]
    refine ⟨?hostName, ?cpu, ?cpuCount, List.forall_mem_nil _⟩
    case hostName => exact fun halike => absurd halike.1 (by decide)
    case cpu =>
      intro value other halike
      exact blurs_optional_form (blurs_record_form Cpu.lawful Cpu.fits _) halike.2
    case cpuCount => exact fun halike => absurd halike.1 (by decide)

theorem Entry.blurs_reformed : Blurs read Reformed := by
  intro entry other halike r
  rcases halike with rfl | halike
  · rfl
  · exact blurs_record_form lawful fits _ halike r

theorem Document.fits_forms : forms.Fits Partial.slots {} where
  names := fits.names
  mayLack := fits.mayLack
  nullable := fits.nullable
  blurs := by
    simp only [Partial.slots, List.forall_mem_cons]
    refine ⟨?context, ?benchmarks, List.forall_mem_nil _⟩
    case context =>
      intro value other halike
      rcases halike with ⟨-, halike⟩ | ⟨hname, -⟩
      · exact blurs_optional_form (blurs_record_form Context.lawful Context.fits_forms _) halike
      · exact absurd hname (by decide)
    case benchmarks =>
      intro value other halike
      rcases halike with ⟨hname, -⟩ | ⟨-, halike⟩
      · exact absurd hname (by decide)
      · exact blurs_list Entry.local_read Entry.blurs_reformed halike

theorem Document.Reformed.ofSymbols_eq_ok_iff {s other : Symbols} (hreformed : Reformed s other)
    {document : Document} :
    Document.ofSymbols s = .ok document ↔ Document.ofSymbols other = .ok document := by
  obtain ⟨hbefore, hafter, hotherBefore, hotherAfter, halike⟩ := hreformed
  obtain ⟨hvalue, hother, -⟩ := id halike
  rw [ofSymbols_eq_ok_iff_reads hvalue.value hbefore hafter,
    ofSymbols_eq_ok_iff_reads hother.value hotherBefore hotherAfter]
  exact blurs_record_form Partial.lawful fits_forms _ halike document.full

/-- A list of fewer than two items lacks the benchmarks. -/
theorem Document.ofSymbols_list_ne_ok {items : List Item} {gap before after : Symbols}
    (hitems : ∀ item ∈ items, Value item.value) (hgap : Blank gap) (hbefore : Blank before)
    (hafter : Blank after) (hlength : items.length < 2) (document : Document) :
    Document.ofSymbols (before ++ (listText items gap ++ after)) ≠ .ok document := by
  intro hdocument
  have hnodup : Document.names.Nodup := by decide
  have hholds := holds_list hnodup hitems hgap hlength.le
  rw [ofSymbols_eq_ok_iff_reads hholds.value hbefore hafter, Partial.read, Partial.fields_eq,
    reads_record_iff_sets Partial.lawful hholds, Document.sets_iff] at hdocument
  obtain ⟨-, text, htext, -⟩ := hdocument
  have hnone : items[1]? = none := List.getElem?_eq_none (Nat.le_of_lt_succ hlength)
  have hplace : Document.names.idxOf "benchmarks" = 1 := by decide
  rw [placed, hplace, hnone] at htext
  contradiction

end Input

namespace Load

/-- The form of records does not matter: a document with any of its records in their other form
is loaded as the same run or refused for the same entry, or both are malformed. A document that
is a list needs two items. -/
theorem ofText_reformed (source : String) :
    (∀ {text other : String},
      Input.Document.Reformed (text.toList.map some) (other.toList.map some) →
        ofText source text = ofText source other ∨
          ∃ fault otherFault, ofText source text = .error (.malformed source fault) ∧
            ofText source other = .error (.malformed source otherFault)) ∧
    ∀ {text : String} {items : List Item} {gap before after : Symbols},
      text.toList.map some = before ++ (listText items gap ++ after) →
        (∀ item ∈ items, Value item.value) → Blank gap → Blank before → Blank after →
          items.length < 2 → ∃ fault, ofText source text = .error (.malformed source fault) := by
  have hmalformed : ∀ {s fault}, Input.Document.ofSymbols s = .error fault →
      ofSymbols source s = .error (.malformed source fault) := by
    intro s fault hdocument
    rw [ofSymbols, hdocument]
  constructor
  · intro text other hreformed
    unfold ofText
    cases hdocument : Input.Document.ofSymbols (text.toList.map some) with
    | ok document =>
        left
        rw [ofSymbols, ofSymbols, hdocument, hreformed.ofSymbols_eq_ok_iff.mp hdocument]
    | error fault =>
        right
        cases hother : Input.Document.ofSymbols (other.toList.map some) with
        | ok document =>
            rw [hreformed.ofSymbols_eq_ok_iff.mpr hother] at hdocument
            contradiction
        | error otherFault => exact ⟨fault, otherFault, hmalformed hdocument, hmalformed hother⟩
  · intro text items gap before after htext hitems hgap hbefore hafter hlength
    rw [ofText, htext]
    cases hdocument : Input.Document.ofSymbols (before ++ (listText items gap ++ after)) with
    | ok document =>
        exact absurd hdocument
          (Input.Document.ofSymbols_list_ne_ok hitems hgap hbefore hafter hlength document)
    | error fault => exact ⟨fault, hmalformed hdocument⟩

/-- The document, the context, the processor and the first benchmark are put into lists. -/
theorem ofText_reformed_nested :
    let text := "[[null,[\"x\",4]],[[\"a\",1],\x7b\"real_time\":2\x7d]]"
    let other :=
      "\x7b\"context\":\x7b\"cpu_info\":\x7b\"name\":\"x\",\"num_cpus\":4\x7d\x7d," ++
        "\"benchmarks\":[\x7b\"name\":\"a\",\"real_time\":1\x7d,\x7b\"real_time\":2\x7d]\x7d"
    let run : Run := {
      machine := { cpuName := "x", cpuCount := some 4 }
      records := [{ name := "a", realTime := .ofNat 1 },
        { name := unknownName, realTime := .ofNat 2 }]
      source := "run.json" }
    Input.Document.Reformed (text.toList.map some) (other.toList.map some) ∧
      ofText "run.json" text = .ok run ∧ ofText "run.json" other = .ok run ∧
      ∃ fault, ofText "run.json" "[null]" = .error (.malformed "run.json" fault) := by
  intro text other run
  let given (name : String) (n : Nat) := [some (Write.string name), some (Write.natural n)]
  let entry := Write.object [("real_time", Write.natural 2)]
  have hnumber (n : Nat) : Value ((Write.natural n).map some) := .unsigned (unsigned_natural n)
  have hgiven : ∀ name n, ∀ text, some text ∈ given name n → Value (text.map some) := by
    intro name n text htext
    rcases List.mem_pair.mp htext with htext | htext
    · obtain rfl := Option.some.inj htext
      exact (written_string name).value
    · obtain rfl := Option.some.inj htext
      exact hnumber n
  have hcpu := @formAlike_given Input.Cpu.shape (by decide) (given "x" 4) (by decide)
    (hgiven "x" 4) (by decide)
  have hfirst := @formAlike_given Input.Entry.shape (by decide) (given "a" 1) (by decide)
    (hgiven "a" 1) (by decide)
  have hentry : Value (entry.map some) :=
    (holds_object [] (by simp) (List.forall_mem_singleton.mpr (hnumber 2))).value
  have hreformed : Input.Document.Reformed (text.toList.map some) (other.toList.map some) := by
    obtain ⟨hvalue, hother, -⟩ := id hfirst
    have htext : text.toList = Write.list [
        Write.list [['n', 'u', 'l', 'l'], Write.list (Write.givenItems (given "x" 4))],
        Write.list [Write.list (Write.givenItems (given "a" 1)), entry]] := by decide +kernel
    have hobject : other.toList = Write.object [
        ("context", Write.object
          [("cpu_info", Write.object (Write.givenMembers Input.Cpu.shape.names (given "x" 4)))]),
        ("benchmarks", Write.list
          [Write.object (Write.givenMembers Input.Entry.shape.names (given "a" 1)), entry])] := by
      decide +kernel
    rw [htext, hobject]
    exact Input.Document.reformed_written (Input.Context.formAlike_cpu hcpu)
      (List.forall_mem_cons.mpr ⟨hvalue.value, List.forall_mem_singleton.mpr hentry⟩)
      (List.forall_mem_cons.mpr ⟨hother.value, List.forall_mem_singleton.mpr hentry⟩)
      (.cons (.inr hfirst) (.cons (.inl rfl) .nil))
  have hload : (ofText "run.json" text).toOption = some run := by decide +kernel
  have hload := Outcome.toOption_eq_some_iff.mp hload
  obtain ⟨hforms, hshort⟩ := ofText_reformed "run.json"
  refine ⟨hreformed, hload, ?_, ?_⟩
  · rcases hforms hreformed with hsame | ⟨_, _, hmalformed, -⟩
    · exact hsame ▸ hload
    · rw [hload] at hmalformed
      contradiction
  · exact @hshort "[null]" [.bare nullText] [] [] [] rfl (List.forall_mem_singleton.mpr .null)
      blank_nil blank_nil blank_nil (by decide)

end Load

end TimingReport
