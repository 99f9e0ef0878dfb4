import TimingReport.Proofs.Json.Records
import TimingReport.Proofs.Json.Skipped

/-!
# What readers take

A reader that succeeds has taken white space and one value of the grammar. This holds of the
readers of parts, and readers of lists and records take it over from the readers of what they
hold. So a document that is read at all is a value between white space.
-/

namespace TimingReport.Json

variable {α β σ : Type} {reader : Reader α} {s t rest : Symbols} {first : Bool}

/-- What a reader has taken where `rest` is left of `s`: white space and a value. -/
def Taken (s rest : Symbols) : Prop :=
  ∃ gap value, s = gap ++ (value ++ rest) ∧ Blank gap ∧ Value value

/-- The reader succeeds on nothing but values. -/
def Sound (reader : Reader α) : Prop :=
  ∀ ⦃s rest : Symbols⦄ ⦃a : α⦄, reader s = .ok (a, rest) → Taken s rest

theorem Blank.append {gap other : Symbols} (hgap : Blank gap) (hother : Blank other) :
    Blank (gap ++ other) :=
  List.forall_mem_append.mpr ⟨hgap, hother⟩

/-- White space is left out in front of what is looked at. -/
theorem exists_skipBlank (s : Symbols) : ∃ gap, s = gap ++ skipBlank s ∧ Blank gap :=
  ⟨_, List.takeWhile_append_dropWhile.symm, fun _ hc => List.mem_takeWhile_imp hc⟩

/-- White space in front of what is taken is taken with it. -/
theorem Taken.of_skipBlank (htaken : Taken (skipBlank s) rest) : Taken s rest := by
  obtain ⟨gap, hs, hgap⟩ := exists_skipBlank s
  obtain ⟨other, value, heq, hother, hvalue⟩ := htaken
  refine ⟨gap ++ other, value, ?_, hgap.append hother, hvalue⟩
  rw [hs, heq, List.append_assoc]

theorem Taken.of_value {value : Symbols} (hvalue : Value value)
    (hs : skipBlank s = value ++ rest) : Taken s rest :=
  .of_skipBlank ⟨[], value, hs, blank_nil, hvalue⟩

/-- What remains of a bracket is taken with the symbol that opens it. -/
theorem Taken.of_remains (frame : Skip.Frame) (hs : skipBlank s = frame.opener :: t)
    (hremains : frame.Remains true t rest) : Taken s rest := by
  obtain ⟨value, heq, hvalue⟩ := hremains.exists_value
  exact .of_value hvalue (hs.trans heq)

/-! ## Parts -/

/-- What is taken for a text is a string. -/
theorem sound_text : Sound text := by
  intro s rest a hread
  unfold text at hread
  split at hread
  next tail hs =>
    obtain ⟨body, rfl, hspells⟩ := spells_of_readString hread
    refine .of_value (.string hspells.body) ?_
    rw [hs, stringText]
    simp
  next => contradiction

/-- What is taken for a number is a number with or without a minus. -/
theorem sound_number (wanted : String) : Sound (number wanted) := by
  intro s rest n hread
  unfold number at hread
  split at hread
  next d tail hs =>
    split_ifs at hread
    obtain ⟨text, heq, hvalue⟩ := value_of_readNumber hread
    exact .of_value hvalue (hs.trans heq)
  next => contradiction

/-- Making something of a value takes nothing more. -/
theorem Sound.map (hsound : Sound reader) (f : α → β) :
    Sound fun s => (reader s).map fun (a, rest) => (f a, rest) := by
  intro s rest b hread
  obtain ⟨⟨a, left⟩, ha, hb⟩ := Outcome.map_eq_ok_iff.mp hread
  obtain ⟨-, rfl⟩ := Prod.mk.inj hb
  exact hsound ha

/-- Converting a value takes nothing more. -/
theorem Sound.convert (hsound : Sound reader) (f : α → Except Fault β) : Sound fun s => do
    let (a, rest) ← reader s
    let b ← f a
    return (b, rest) := by
  intro s rest b hread
  obtain ⟨⟨a, left⟩, ha, hread⟩ := Outcome.bind_eq_ok_iff.mp hread
  obtain ⟨b, -, hread⟩ := Outcome.bind_eq_ok_iff.mp hread
  obtain ⟨-, rfl⟩ := Prod.mk.inj (Except.ok.inj hread)
  exact hsound ha

theorem sound_real : Sound real := by
  rw [real_eq]
  exact (sound_number "f64").map Number.toReal

theorem sound_natural (bits : Nat) : Sound (natural bits) := by
  rw [natural_eq]
  exact (sound_number _).convert (Number.toNatural bits)

/-- An absent value is taken as null, and any other by its own reader. -/
theorem Sound.optional (hsound : Sound reader) : Sound (optional reader) := by
  intro s rest a hread
  unfold Json.optional at hread
  split at hread
  next tail hs =>
    obtain ⟨left, hliteral, hread⟩ := Outcome.bind_eq_ok_iff.mp hread
    obtain ⟨-, rfl⟩ := Prod.mk.inj (Except.ok.inj hread)
    refine .of_value .null ?_
    rw [hs, eq_append_of_readLiteral hliteral]
    rfl
  next => exact .of_skipBlank (hsound.map some hread)

/-! ## Lists -/

/-- A list that is closed has no more elements. -/
theorem remains_of_closed (hnext : nextElement first s = .ok (.closed rest)) :
    Skip.Frame.list.Remains first s rest := by
  obtain ⟨gap, hs, hgap⟩ := exists_skipBlank s
  unfold nextElement at hnext
  split at hnext
  next => contradiction
  next left hclose =>
    obtain rfl := NextElement.closed.inj (Except.ok.inj hnext)
    rw [hs, hclose]
    exact .closed hgap
  next =>
    split_ifs at hnext
    · cases hnext
    · split at hnext <;> cases hnext

/-- An element starts behind the comma, or directly behind the bracket. -/
theorem continues_of_starts (hnext : nextElement first s = .ok (.starts t)) :
    Skip.Continues first s t := by
  obtain ⟨gap, hs, hgap⟩ := exists_skipBlank s
  unfold nextElement at hnext
  split at hnext
  next => contradiction
  next => cases hnext
  next d tail _ hfront =>
    rw [hfront] at hs
    split_ifs at hnext with hfirst hcomma
    · obtain rfl := NextElement.starts.inj (Except.ok.inj hnext)
      rw [hs, hfirst]
      exact .first hgap
    · obtain ⟨lead, htail, hlead⟩ := exists_skipBlank tail
      split at hnext
      next => contradiction
      next => contradiction
      next =>
        obtain rfl := NextElement.starts.inj (Except.ok.inj hnext)
        rw [htail, hcomma] at hs
        rw [hs, Bool.eq_false_iff.mpr hfirst]
        exact .next hgap hlead

/-- An element and what remains behind it are what remains of the list. -/
theorem remains_of_element (hcontinues : Skip.Continues first s t) {tail : Symbols}
    (htaken : Taken t tail) (hrest : Skip.Frame.list.Remains false tail rest) :
    Skip.Frame.list.Remains first s rest := by
  obtain ⟨gap, value, rfl, hgap, hvalue⟩ := htaken
  rw [← List.append_assoc] at hcontinues
  refine .of_continues hcontinues (fun lead hlead => ?_) hrest
  rw [← List.append_assoc]
  exact Skip.isFront_item (hlead.append hgap) hvalue

/-- The elements that are read are all that remains of the list. -/
theorem remains_of_readElements (hsound : Sound reader) {read found : List α} {fuel : Nat}
    (hread : readElements reader read fuel first s = .ok (found, rest)) :
    Skip.Frame.list.Remains first s rest := by
  induction fuel generalizing read first s with
  | zero => contradiction
  | succ fuel ih =>
      rw [readElements] at hread
      split at hread
      next => contradiction
      next left hnext =>
        obtain ⟨-, rfl⟩ := Prod.mk.inj (Except.ok.inj hread)
        exact remains_of_closed hnext
      next t hnext =>
        split at hread
        next => contradiction
        next a tail helement =>
          exact remains_of_element (continues_of_starts hnext) (hsound helement) (ih hread)

/-- What is taken for a list is a list of values. -/
theorem Sound.list (hsound : Sound reader) : Sound (list reader) := by
  intro s rest found hread
  unfold Json.list at hread
  split at hread
  next tail hs => exact .of_remains .list hs (remains_of_readElements hsound hread)
  next => contradiction
  next => contradiction

/-! ## Records -/

/-- The readers of all fields are sound, whatever has been read before. -/
def SoundFields (fields : List (Field σ)) : Prop :=
  ∀ field ∈ fields, ∀ r, Sound (field.read r)

variable {fields : List (Field σ)}

theorem remains_of_endList (hend : endList s = .ok rest) :
    Skip.Frame.list.Remains first s rest := by
  obtain ⟨gap, hs, hgap⟩ := exists_skipBlank s
  unfold endList at hend
  split at hend
  next => contradiction
  next left hclose =>
    obtain rfl := Except.ok.inj hend
    rw [hs, hclose]
    exact .closed hgap
  next => split at hend <;> contradiction
  next => contradiction

/-- Values by position are all that remains of the list. -/
theorem remains_of_readPositions (hsound : SoundFields fields) {r r' : σ}
    (hread : readPositions fields first r s = .ok (r', rest)) :
    Skip.Frame.list.Remains first s rest := by
  induction fields generalizing first r s with
  | nil =>
      obtain ⟨left, hend, hpair⟩ := Outcome.map_eq_ok_iff.mp hread
      obtain ⟨-, rfl⟩ := Prod.mk.inj hpair
      exact remains_of_endList hend
  | cons field fields ih =>
      obtain ⟨hfirst, hothers⟩ := List.forall_mem_cons.mp hsound
      rw [readPositions] at hread
      split at hread
      next => contradiction
      next left hnext =>
        obtain ⟨-, rfl⟩ := Prod.mk.inj (Except.ok.inj hread)
        exact remains_of_closed hnext
      next t hnext =>
        split at hread
        next => contradiction
        next a tail helement =>
          exact remains_of_element (continues_of_starts hnext) (hfirst r helement)
            (ih hothers hread)

/-- An object that is closed has no more members. -/
theorem remains_of_memberClosed (hnext : nextMember first s = .ok (.closed rest)) :
    Skip.Frame.object.Remains first s rest := by
  obtain ⟨gap, hs, hgap⟩ := exists_skipBlank s
  unfold nextMember at hnext
  split at hnext
  next => contradiction
  next left hclose =>
    obtain rfl := NextElement.closed.inj (Except.ok.inj hnext)
    rw [hs, hclose]
    exact .closed hgap
  next =>
    split_ifs at hnext
    · cases hnext
    · split at hnext <;> cases hnext

/-- A member starts with a quote behind the comma, or directly behind the brace. -/
theorem continues_of_memberStarts (hnext : nextMember first s = .ok (.starts t)) :
    Skip.Continues first s (some '"' :: t) := by
  obtain ⟨gap, hs, hgap⟩ := exists_skipBlank s
  unfold nextMember at hnext
  split at hnext
  next => contradiction
  next => cases hnext
  next d tail _ hfront =>
    rw [hfront] at hs
    split_ifs at hnext with hfirst hquote hcomma
    · obtain rfl := NextElement.starts.inj (Except.ok.inj hnext)
      rw [hs, hfirst, hquote]
      exact .first hgap
    · obtain ⟨lead, htail, hlead⟩ := exists_skipBlank tail
      split at hnext
      next => contradiction
      next left hfront =>
        obtain rfl := NextElement.starts.inj (Except.ok.inj hnext)
        rw [htail, hcomma, hfront] at hs
        rw [hs, Bool.eq_false_iff.mpr hfirst]
        exact .next hgap hlead
      next => contradiction
      next => contradiction

/-- A colon stands behind white space. -/
theorem exists_gap_of_readColon (hcolon : readColon s = .ok rest) :
    ∃ gap, s = gap ++ some ':' :: rest ∧ Blank gap := by
  obtain ⟨gap, hs, hgap⟩ := exists_skipBlank s
  unfold readColon at hcolon
  split at hcolon
  next left hfront =>
    obtain rfl := Except.ok.inj hcolon
    exact ⟨gap, hfront ▸ hs, hgap⟩
  next => contradiction
  next => contradiction

/-- A member and what remains behind it are what remains of the object. -/
theorem remains_of_member {key : String} {left behind tail : Symbols}
    (hnext : nextMember first s = .ok (.starts t)) (hkey : readString t = .ok (key, left))
    (hcolon : readColon left = .ok behind) (htaken : Taken behind tail)
    (hrest : Skip.Frame.object.Remains false tail rest) :
    Skip.Frame.object.Remains first s rest := by
  have hcontinues := continues_of_memberStarts hnext
  obtain ⟨body, rfl, hspells⟩ := spells_of_readString hkey
  obtain ⟨gap, rfl, hgap⟩ := exists_gap_of_readColon hcolon
  obtain ⟨before, value, rfl, hbefore, hvalue⟩ := htaken
  have hfront : ∀ lead, Blank lead → Skip.Frame.object.IsFront
      (lead ++ some '"' :: (body ++ some '"' :: (gap ++ some ':' :: (before ++ value)))) :=
    fun lead hlead => Skip.isFront_member hlead hspells.body hgap hbefore hvalue
  refine .of_continues ?_ hfront hrest
  simpa using hcontinues

/-- The members that are read are all that remains of the object. -/
theorem remains_of_readMembers (hsound : SoundFields fields) {fuel : Nat} {seen : List String}
    {r r' : σ} (hread : readMembers fields fuel first seen r s = .ok (r', rest)) :
    Skip.Frame.object.Remains first s rest := by
  induction fuel generalizing first seen r s with
  | zero => contradiction
  | succ fuel ih =>
      rw [readMembers] at hread
      split at hread
      next => contradiction
      next left hnext =>
        obtain ⟨-, rfl⟩ := Prod.mk.inj (Except.ok.inj hread)
        exact remains_of_memberClosed hnext
      next t hnext =>
        split at hread
        next => contradiction
        next key left hkey =>
          split at hread
          next field hfield =>
            split_ifs at hread
            split at hread
            next => contradiction
            next r tail hvalue =>
              obtain ⟨behind, hcolon, hvalue⟩ := Outcome.bind_eq_ok_iff.mp hvalue
              have hfield := List.mem_of_find?_eq_some hfield
              exact remains_of_member hnext hkey hcolon (hsound field hfield _ hvalue) (ih hread)
          next =>
            split at hread
            next => contradiction
            next tail hvalue =>
              obtain ⟨behind, hcolon, hvalue⟩ := Outcome.bind_eq_ok_iff.mp hvalue
              exact remains_of_member hnext hkey hcolon (Skip.value_of_value hvalue) (ih hread)

/-- What is taken for a record is an object or a list. -/
theorem SoundFields.record (hsound : SoundFields fields) (wanted : String) (empty : σ) :
    Sound (record wanted fields empty) := by
  intro s rest r hread
  unfold Json.record at hread
  split at hread
  next tail hs =>
    obtain ⟨⟨r', left⟩, hmembers, hpair⟩ := Outcome.map_eq_ok_iff.mp hread
    obtain ⟨-, rfl⟩ := Prod.mk.inj hpair
    exact .of_remains .object hs (remains_of_readMembers hsound hmembers)
  next tail hs =>
    obtain ⟨⟨r', left⟩, hitems, hpair⟩ := Outcome.map_eq_ok_iff.mp hread
    obtain ⟨-, rfl⟩ := Prod.mk.inj hpair
    exact .of_remains .list hs (remains_of_readPositions hsound hitems)
  next => contradiction
  next => contradiction

/-- Slots with sound readers are sound fields. -/
theorem SoundFields.of_slots {slots : List (Slot σ)} (hsound : ∀ slot ∈ slots, Sound slot.reader) :
    SoundFields (slots.map Slot.field) := by
  intro field hfield r
  obtain ⟨slot, hslot, rfl⟩ := List.mem_map.mp hfield
  exact (hsound slot hslot).map (slot.set r)

/-! ## Documents -/

/-- A document that is read is a value between white space. -/
theorem Sound.document (hsound : Sound reader) {a : α} (hread : document reader s = .ok a) :
    ∃ before value after, s = before ++ (value ++ after) ∧ Blank before ∧ Value value ∧
      Blank after := by
  unfold Json.document at hread
  split at hread
  next => contradiction
  next rest hvalue =>
    split_ifs at hread with hrest
    obtain ⟨before, value, rfl, hbefore, hvalue⟩ := hsound hvalue
    have hafter : Blank rest := List.dropWhile_eq_nil_iff.mp (List.isEmpty_iff.mp hrest)
    exact ⟨before, value, rest, rfl, hbefore, hvalue, hafter⟩

end TimingReport.Json
