import TimingReport.Proofs.Json.Positions

/-!
# Records by the texts of their fields

A record may be written as an object or as a list. Both hold texts of its fields, and what is
read depends on these texts alone: not on the form, on the order of members, on white space or
on members that name no field.
-/

namespace TimingReport.Json

variable {σ α : Type}

/-! ## Texts of fields -/

/-- The texts of fields by name; fields that are left out have none. -/
abbrev Texts := String → Option Symbols

/-- The members hold the texts of the fields with the given names. -/
structure MembersHold (names : List String) (texts : Texts) (members : List Member) : Prop where
  keys : ∀ member ∈ members, ∃ name : String, Spells member.key name.toList
  distinct : members.Pairwise fun member other =>
    ∀ name ∈ names, ¬(Spells member.key name.toList ∧ Spells other.key name.toList)
  texts_iff : ∀ name ∈ names, ∀ text, texts name = some text ↔
    ∃ member ∈ members, Spells member.key name.toList ∧ member.value = text

/-- A record in either of its forms holds the texts of the fields with the given names. -/
inductive Holds (names : List String) (texts : Texts) : Symbols → Prop
  | named {members : List Member} {gap : Symbols}
      (hmembers : ∀ member ∈ members, Value member.value) (hgap : Blank gap)
      (hholds : MembersHold names texts members) : Holds names texts (objectText members gap)
  | positional {items : List Item} {gap : Symbols} (hitems : ∀ item ∈ items, Value item.value)
      (hgap : Blank gap) (hlength : items.length ≤ names.length)
      (htexts : ∀ (i : Nat) (name : String), names[i]? = some name →
        texts name = items[i]?.map Item.value) : Holds names texts (listText items gap)

theorem Holds.value {names : List String} {texts : Texts} {value : Symbols}
    (hholds : Holds names texts value) : Value value := by
  cases hholds with
  | named hmembers hgap _ => exact .object hgap hmembers
  | positional hitems hgap _ _ => exact .list hgap hitems

/-- The texts set slots of a record `r` up to `r'`. -/
def Sets (texts : Texts) : List (Slot σ) → σ → σ → Prop
  | [], r, r' => r = r'
  | slot :: slots, r, r' =>
      match texts slot.name with
      | none => Sets texts slots r r'
      | some text => ∃ a, Reads slot.reader text a ∧ Sets texts slots (slot.set r a) r'

variable {texts : Texts} {slot : Slot σ} {slots : List (Slot σ)} {member : Member}
  {members : List Member} {items : List Item} {r r' : σ}

theorem sets_cons_none_iff (htext : texts slot.name = none) :
    Sets texts (slot :: slots) r r' ↔ Sets texts slots r r' := by
  rw [Sets, htext]

theorem sets_cons_some_iff {text : Symbols} (htext : texts slot.name = some text) :
    Sets texts (slot :: slots) r r' ↔
      ∃ a, Reads slot.reader text a ∧ Sets texts slots (slot.set r a) r' := by
  rw [Sets, htext]

/-! ## Objects -/

theorem Lawful.tail (hlawful : Lawful (slot :: slots)) : Lawful slots where
  distinct := (List.nodup_cons.mp hlawful.distinct).2
  commutes := (List.pairwise_cons.mp hlawful.commutes).2

theorem Lawful.name_ne (hlawful : Lawful (slot :: slots)) {other : Slot σ}
    (hother : other ∈ slots) : other.name ≠ slot.name :=
  fun hname => (List.nodup_cons.mp hlawful.distinct).1 (List.mem_map.mpr ⟨other, hother, hname⟩)

theorem fills_nil_iff (hkeys : ∀ member ∈ members, ∃ name : String, Spells member.key name.toList) :
    Fills ([] : List (Slot σ)) members r r' ↔ r = r' := by
  induction members with
  | nil =>
      refine ⟨fun hfills => ?_, fun heq => heq ▸ .nil⟩
      cases hfills
      rfl
  | cons member members ih =>
      obtain ⟨⟨name, hkey⟩, hkeys⟩ := List.forall_mem_cons.mp hkeys
      rw [fills_unknown_iff hkey (List.forall_mem_nil _), ih hkeys]

/-- A slot that no member names does not matter. -/
theorem fills_unnamed_iff (hlawful : Lawful (slot :: slots))
    (hunnamed : ∀ member ∈ members, ¬Spells member.key slot.name.toList) :
    Fills (slot :: slots) members r r' ↔ Fills slots members r r' := by
  induction members generalizing r with
  | nil =>
      constructor
      · rintro ⟨⟩
        exact .nil
      · rintro ⟨⟩
        exact .nil
  | cons member members ih =>
      obtain ⟨hfirst, hunnamed⟩ := List.forall_mem_cons.mp hunnamed
      by_cases hkey : ∃ name : String, Spells member.key name.toList
      case neg =>
        exact iff_of_false (fun hfills => hkey hfills.exists_name)
          (fun hfills => hkey hfills.exists_name)
      obtain ⟨name, hkey⟩ := hkey
      by_cases hknown : ∃ other ∈ slots, other.name = name
      · obtain ⟨other, hother, rfl⟩ := hknown
        rw [fills_known_iff hlawful (List.mem_cons_of_mem _ hother) hkey,
          fills_known_iff hlawful.tail hother hkey]
        exact and_congr_right fun _ => exists_congr fun a => and_congr_right fun _ => ih hunnamed
      · have hunknown : ∀ other ∈ slots, other.name ≠ name := by simpa using hknown
        have hslot : slot.name ≠ name := fun hname => hfirst (hname ▸ hkey)
        rw [fills_unknown_iff hkey hunknown,
          fills_unknown_iff hkey (List.forall_mem_cons.mpr ⟨hslot, hunknown⟩)]
        exact ih hunnamed

theorem MembersHold.of_cons {name : String} {names : List String}
    (hholds : MembersHold (name :: names) texts members) : MembersHold names texts members where
  keys := hholds.keys
  distinct := hholds.distinct.imp fun hdistinct other hother =>
    hdistinct other (List.mem_cons_of_mem _ hother)
  texts_iff other hother := hholds.texts_iff other (List.mem_cons_of_mem _ hother)

theorem MembersHold.perm {names : List String} {others : List Member}
    (hholds : MembersHold names texts members) (hperm : members.Perm others) :
    MembersHold names texts others where
  keys member hmember := hholds.keys member (hperm.mem_iff.mpr hmember)
  distinct := by
    refine (hperm.pairwise_iff fun hdistinct name hname hsame => ?_).mp hholds.distinct
    exact hdistinct name hname hsame.symm
  texts_iff name hname text := by
    rw [hholds.texts_iff name hname text]
    simp only [hperm.mem_iff]

/-- Without the member of the first slot, members hold the texts of the other slots. -/
theorem MembersHold.tail (hlawful : Lawful (slot :: slots))
    (hholds : MembersHold ((slot :: slots).map Slot.name) texts (member :: members))
    (hkey : Spells member.key slot.name.toList) :
    MembersHold (slots.map Slot.name) texts members where
  keys := (List.forall_mem_cons.mp hholds.keys).2
  distinct := (List.pairwise_cons.mp hholds.distinct).2.imp fun hdistinct name hname =>
    hdistinct name (List.mem_cons_of_mem _ hname)
  texts_iff name hname text := by
    obtain ⟨other, hother, rfl⟩ := List.mem_map.mp hname
    have hfirst : ¬(Spells member.key other.name.toList ∧ member.value = text) :=
      fun hsame => hlawful.name_ne hother (hsame.1.unique hkey)
    rw [hholds.texts_iff other.name (List.mem_cons_of_mem _ hname) text]
    rw [List.exists_mem_cons_iff, or_iff_right hfirst]

/-- An object is read as the texts of its members say. -/
theorem MembersHold.fills_iff (hlawful : Lawful slots)
    (hholds : MembersHold (slots.map Slot.name) texts members) :
    Fills slots members r r' ↔ Sets texts slots r r' := by
  induction slots generalizing members r with
  | nil => exact fills_nil_iff hholds.keys
  | cons slot slots ih =>
      have hslot : slot.name ∈ (slot :: slots).map Slot.name := List.mem_cons_self
      cases htext : texts slot.name with
      | none =>
          have hunnamed : ∀ member ∈ members, ¬Spells member.key slot.name.toList := by
            intro member hmember hkey
            have hsome := (hholds.texts_iff slot.name hslot _).mpr ⟨member, hmember, hkey, rfl⟩
            rw [htext] at hsome
            contradiction
          rw [fills_unnamed_iff hlawful hunnamed, sets_cons_none_iff htext]
          exact ih hlawful.tail hholds.of_cons
      | some text =>
          obtain ⟨member, hmember, hkey, rfl⟩ := (hholds.texts_iff slot.name hslot text).mp htext
          obtain ⟨before, after, rfl⟩ := List.append_of_mem hmember
          -- the member of the slot is brought to the front
          have hperm : (before ++ member :: after).Perm (member :: (before ++ after)) :=
            List.perm_middle
          have hfront := hholds.perm hperm
          have hfresh : ∀ other ∈ before ++ after, ¬Spells other.key slot.name.toList :=
            fun other hother hsame =>
              (List.pairwise_cons.mp hfront.distinct).1 other hother slot.name hslot ⟨hkey, hsame⟩
          have hfills : Fills (slot :: slots) (before ++ member :: after) r r' ↔
              Fills (slot :: slots) (member :: (before ++ after)) r r' :=
            ⟨.perm hlawful hperm, .perm hlawful hperm.symm⟩
          rw [hfills, fills_known_iff hlawful List.mem_cons_self hkey, sets_cons_some_iff htext,
            and_iff_right hfresh]
          refine exists_congr fun a => and_congr_right fun _ => ?_
          rw [fills_unnamed_iff hlawful hfresh]
          exact ih hlawful.tail (hfront.tail hlawful hkey)

/-! ## Lists -/

/-- A list is read as the texts of its items say. -/
theorem places_iff (hlength : items.length ≤ slots.length)
    (htexts : ∀ (i : Nat) (name : String), (slots.map Slot.name)[i]? = some name →
      texts name = items[i]?.map Item.value) :
    Places slots items r r' ↔ Sets texts slots r r' := by
  induction slots generalizing items r with
  | nil =>
      obtain rfl := List.length_eq_zero_iff.mp (Nat.le_zero.mp hlength)
      constructor
      · rintro ⟨⟩
        rfl
      · rintro ⟨⟩
        exact .nil
  | cons slot slots ih =>
      have hfirst := htexts 0 slot.name rfl
      have hothers := fun i => htexts (i + 1)
      cases items with
      | nil =>
          rw [sets_cons_none_iff hfirst, ← @ih [] _ (Nat.zero_le _) hothers]
          constructor
          · rintro ⟨⟩
            exact .nil
          · rintro ⟨⟩
            exact .nil
      | cons item items =>
          rw [sets_cons_some_iff hfirst]
          have hrest := fun a => @ih items (slot.set r a) (Nat.le_of_succ_le_succ hlength) hothers
          simp only [← hrest]
          constructor
          · rintro (_ | ⟨hread, hrest⟩)
            exact ⟨_, hread, hrest⟩
          · rintro ⟨a, hread, hrest⟩
            exact .cons hread hrest

/-! ## Fields that may be absent -/

/-- The text of a field that may be absent, and what is read from it. -/
def ReadsField (reader : Reader α) : Option Symbols → Option α → Prop
  | none, a => a = none
  | some text, a => Reads (optional reader) text a

theorem sets_ofOptional_iff {name : String} {reader : Reader α} {hlocal : Local reader}
    {set : σ → Option α → σ} (hset : set r none = r) :
    Sets texts (.ofOptional name hlocal set :: slots) r r' ↔
      ∃ a, ReadsField reader (texts name) a ∧ Sets texts slots (set r a) r' := by
  cases htext : texts name with
  | none =>
      rw [sets_cons_none_iff htext]
      simp only [ReadsField, exists_eq_left, hset]
  | some text =>
      rw [sets_cons_some_iff htext]
      rfl

end TimingReport.Json
