import TimingReport.Proofs.Input.Writing
import TimingReport.Proofs.Json.Rearranged
import TimingReport.Load

/-!
# Documents that are loaded alike

The run of a document does not depend on the order of the members of its objects, on members
that name no field, or on fields that are `null` instead of absent.
-/

namespace TimingReport

open Json

namespace Input

/-! ## Documents that are alike -/

def Cpu.shape : Shape where
  names := ["name", "num_cpus"]
  mayLack := ["name", "num_cpus"]
  alike _ _ _ := False

def Context.shape : Shape where
  names := ["host_name", "cpu_info", "num_cpus"]
  mayLack := ["host_name", "cpu_info", "num_cpus"]
  alike name value other := name = "cpu_info" ∧ ObjectAlike Cpu.shape value other

def Entry.shape : Shape where
  names := ["name", "real_time", "cpu_time", "iterations", "items_per_second", "time_unit"]
  mayLack := ["name", "real_time", "cpu_time", "iterations", "items_per_second", "time_unit"]
  alike _ _ _ := False

def Document.shape : Shape where
  names := ["context", "benchmarks"]
  mayLack := ["context"]
  alike name value other :=
    name = "context" ∧ ObjectAlike Context.shape value other ∨
      name = "benchmarks" ∧ ListAlike (ObjectAlike Entry.shape) value other

/-- Documents whose objects have rearranged members, at any of their levels. -/
inductive Document.Alike : Symbols → Symbols → Prop
  | intro {before value after otherBefore other otherAfter : Symbols} (hbefore : Blank before)
      (hafter : Blank after) (hotherBefore : Blank otherBefore) (hotherAfter : Blank otherAfter)
      (halike : ObjectAlike Document.shape value other) :
      Document.Alike (before ++ (value ++ after)) (otherBefore ++ (other ++ otherAfter))

/-! ## The shapes fit -/

/-- A reader of lawful slots does not tell objects of one shape apart that are alike. -/
theorem blurs_record {σ : Type} {slots : List (Slot σ)} {shape : Shape} {empty : σ}
    (hlawful : Lawful slots) (hfits : shape.Fits slots empty) (wanted : String) :
    Blurs (record wanted (slots.map Slot.field) empty) (ObjectAlike shape) := by
  rintro _ _ ⟨hmembers, hgap, hothers, hotherGap, hrearranged⟩ r
  rw [reads_record_iff hlawful hmembers hgap, reads_record_iff hlawful hothers hotherGap]
  exact hrearranged.fills_iff hlawful hfits

theorem Cpu.fits : shape.Fits slots {} where
  names := rfl
  mayLack := List.Subset.refl _
  nullable := by
    simp only [slots, List.forall_mem_cons]
    exact ⟨fun _ => nullable_ofOptional rfl, fun _ => nullable_ofOptional rfl,
      List.forall_mem_nil _⟩
  blurs _ _ _ _ halike := absurd halike id

theorem Cpu.blurs_read : Blurs read (ObjectAlike shape) := blurs_record lawful fits _

theorem Context.fits : shape.Fits slots {} where
  names := rfl
  mayLack := List.Subset.refl _
  nullable := by
    simp only [slots, List.forall_mem_cons]
    exact ⟨fun _ => nullable_ofOptional rfl, fun _ => nullable_ofOptional rfl,
      fun _ => nullable_ofOptional rfl, List.forall_mem_nil _⟩
  blurs := by
    simp only [slots, List.forall_mem_cons]
    refine ⟨?hostName, ?cpu, ?cpuCount, List.forall_mem_nil _⟩
    case hostName => exact fun halike => absurd halike.1 (by decide)
    case cpu => exact fun halike => blurs_optional Cpu.blurs_read halike.2
    case cpuCount => exact fun halike => absurd halike.1 (by decide)

theorem Context.blurs_read : Blurs read (ObjectAlike shape) := blurs_record lawful fits _

theorem Entry.fits : shape.Fits slots {} where
  names := rfl
  mayLack := List.Subset.refl _
  nullable := by
    simp only [slots, List.forall_mem_cons]
    exact ⟨fun _ => nullable_ofOptional rfl, fun _ => nullable_ofOptional rfl,
      fun _ => nullable_ofOptional rfl, fun _ => nullable_ofOptional rfl,
      fun _ => nullable_ofOptional rfl, fun _ => nullable_ofOptional rfl, List.forall_mem_nil _⟩
  blurs _ _ _ _ halike := absurd halike id

theorem Entry.blurs_read : Blurs read (ObjectAlike shape) := blurs_record lawful fits _

theorem Document.fits : shape.Fits Partial.slots {} where
  names := rfl
  mayLack := by simp [shape]
  nullable := by
    simp only [Partial.slots, List.forall_mem_cons]
    refine ⟨fun _ => nullable_ofOptional rfl, fun hname => ?_, List.forall_mem_nil _⟩
    exact absurd hname (by decide)
  blurs := by
    simp only [Partial.slots, List.forall_mem_cons]
    refine ⟨?context, ?benchmarks, List.forall_mem_nil _⟩
    case context =>
      rintro _ _ (⟨_, halike⟩ | ⟨hname, _⟩)
      · exact blurs_optional Context.blurs_read halike
      · exact absurd hname (by decide)
    case benchmarks =>
      rintro _ _ (⟨hname, _⟩ | ⟨_, halike⟩)
      · exact absurd hname (by decide)
      · exact blurs_list Entry.local_read Entry.blurs_read halike

/-- Documents that are alike are read as the same one. -/
theorem Document.Alike.ofSymbols_eq_ok_iff {s other : Symbols} (halike : Document.Alike s other)
    {document : Document} :
    Document.ofSymbols s = .ok document ↔ Document.ofSymbols other = .ok document := by
  obtain ⟨hbefore, hafter, hotherBefore, hotherAfter, hobjects⟩ := halike
  obtain ⟨hmembers, hgap, hothers, hotherGap, hrearranged⟩ := hobjects
  rw [Document.ofSymbols_eq_ok_iff hmembers hgap hbefore hafter,
    Document.ofSymbols_eq_ok_iff hothers hotherGap hotherBefore hotherAfter]
  exact hrearranged.fills_iff Partial.lawful fits

end Input

namespace Load

/-- A text that is loaded gives the same run when the members of its objects are permuted,
when members that name no field are added, whatever their values are, and when fields that
are absent are written as `null`. -/
theorem ofText_of_alike {source text other : String}
    (halike : Input.Document.Alike (text.toList.map some) (other.toList.map some)) {loaded : Run}
    (hload : ofText source text = .ok loaded) : ofText source other = .ok loaded := by
  unfold ofText ofSymbols at hload ⊢
  cases hdocument : Input.Document.ofSymbols (text.toList.map some) with
  | error fault =>
      rw [hdocument] at hload
      contradiction
  | ok document =>
      rw [hdocument] at hload
      rw [halike.ofSymbols_eq_ok_iff.mp hdocument]
      exact hload

/-- In the context a member is added and a field is `null`, and the context is put last. -/
theorem ofText_of_alike_nested :
    ofText "run.json" "\x7b\"context\":\x7b\"num_cpus\":8\x7d,\"benchmarks\":[]\x7d" =
        .ok { machine := { cpuCount := some 8 }, records := [], source := "run.json" } ∧
      ofText "run.json" ("\x7b\"benchmarks\":[],\"context\":" ++
          "\x7b\"host_name\":null,\"mhz\":[[]],\"num_cpus\":8\x7d\x7d") =
        .ok { machine := { cpuCount := some 8 }, records := [], source := "run.json" } := by
  have hspells (m : String × List Char) : Spells (Member.bare m).key m.1.toList :=
    spells_escaped m.1.toList
  have hcount : Value (['8'].map some) := .unsigned (unsigned_natural 8)
  have hempty : Value (['[', ']'].map some) := @Value.list [] [] blank_nil (List.forall_mem_nil _)
  have hnested : Value (listText [.bare (['[', ']'].map some)] []) :=
    .list blank_nil (List.forall_mem_singleton.mpr hempty)
  have hunknown : Rearranged Input.Context.shape [.bare ("num_cpus", ['8'])]
      [.bare ("mhz", "[[]]".toList), .bare ("num_cpus", ['8'])] :=
    .unknown (hspells ("mhz", _)) (by decide)
  have hnull : Rearranged Input.Context.shape
      [.bare ("mhz", "[[]]".toList), .bare ("num_cpus", ['8'])]
      [.bare ("host_name", "null".toList), .bare ("mhz", "[[]]".toList),
        .bare ("num_cpus", ['8'])] := by
    refine .null (hspells ("host_name", _)) (by decide) ?_ rfl
    simp only [List.forall_mem_cons, spells_bare_iff]
    exact ⟨by decide, by decide, List.forall_mem_nil _⟩
  have hcontext : ObjectAlike Input.Context.shape
      ("\x7b\"num_cpus\":8\x7d".toList.map some)
      ("\x7b\"host_name\":null,\"mhz\":[[]],\"num_cpus\":8\x7d".toList.map some) := by
    refine ObjectAlike.intro ?members blank_nil ?others blank_nil (hunknown.trans hnull)
    case members => exact List.forall_mem_singleton.mpr hcount
    case others =>
      simp only [List.forall_mem_cons]
      exact ⟨.null, hnested, hcount, List.forall_mem_nil _⟩
  obtain ⟨⟨hbefore, _⟩, hafter, _⟩ := hcontext.ne_null
  have hinside : Rearranged Input.Document.shape
      [.bare ("context", "\x7b\"num_cpus\":8\x7d".toList), .bare ("benchmarks", ['[', ']'])]
      [.bare ("context", "\x7b\"host_name\":null,\"mhz\":[[]],\"num_cpus\":8\x7d".toList),
        .bare ("benchmarks", ['[', ']'])] :=
    .value (hspells ("context", _)) (hspells ("context", _)) (.inl ⟨rfl, hcontext⟩)
  have hplaces := hinside.trans (.perm (.swap _ _ _))
  have halike := Input.Document.Alike.intro blank_nil blank_nil blank_nil blank_nil <|
    ObjectAlike.intro (List.forall_mem_cons.mpr ⟨hbefore, List.forall_mem_singleton.mpr hempty⟩)
      blank_nil (List.forall_mem_cons.mpr ⟨hempty, List.forall_mem_singleton.mpr hafter⟩)
      blank_nil hplaces
  have hloaded : ofText "run.json"
      "\x7b\"context\":\x7b\"num_cpus\":8\x7d,\"benchmarks\":[]\x7d" =
      .ok { machine := { cpuCount := some 8 }, records := [], source := "run.json" } := by rfl
  refine ⟨hloaded, ofText_of_alike ?_ hloaded⟩
  exact halike

/-! ## Keys that spell no text -/

/-- A member whose key begins a pair of surrogates and does not complete it. -/
def brokenMember : Member where
  toItem := .bare [some '1']
  lead := []
  key := ['\\', 'u', 'd', '8', '0', '0'].map some
  gap := []
  blank_lead := blank_nil
  body_key := @Body.unit _ _ _ _ 0xd800 _ rfl .nil
  blank_gap := blank_nil

/-- The key with half a surrogate pair spells no text. -/
theorem not_spells_brokenMember (text : List Char) : ¬Spells brokenMember.key text := by
  intro hspells
  cases hspells with
  | plain _ hescape => exact hescape rfl
  | short hletter => cases hletter
  | unit hunit hlead =>
      obtain rfl := Option.some.inj hunit
      exact hlead rfl

/-- Keys are read as text even where the member is skipped: the member names no field and its
value is one of JSON, and still the text is refused. -/
theorem ofText_brokenMember :
    (∀ text, ¬Spells brokenMember.key text) ∧ Value brokenMember.value ∧
      "\x7b\"benchmarks\":[]\x7d".toList.map some =
        objectText [.bare ("benchmarks", ['[', ']'])] [] ∧
      "\x7b\"\\ud800\":1,\"benchmarks\":[]\x7d".toList.map some =
        objectText [brokenMember, .bare ("benchmarks", ['[', ']'])] [] ∧
      ofText "results.json" "\x7b\"benchmarks\":[]\x7d" =
        .ok { machine := {}, records := [], source := "results.json" } ∧
      ofText "results.json" "\x7b\"\\ud800\":1,\"benchmarks\":[]\x7d" =
        .error (.malformed "results.json" .brokenSurrogatePair) := by
  have hvalue : Value brokenMember.value := .unsigned (unsigned_natural 1)
  exact ⟨not_spells_brokenMember, hvalue, rfl, rfl, rfl, rfl⟩

end Load

end TimingReport
