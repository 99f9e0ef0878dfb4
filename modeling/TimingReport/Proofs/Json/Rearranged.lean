import TimingReport.Proofs.Json.Records

/-!
# Objects that differ in what does not matter

Members of an object may change places, members without a meaning may be added, and so may
members that are `null`. Objects inside of an object may be changed in the same way. None of
this changes the record that the object fills.
-/

namespace TimingReport.Json

/-- The fields of a record by name: all of them, those that may be absent, and how the value
of a field may be changed. -/
structure Shape where
  names : List String
  mayLack : List String
  alike : String → Symbols → Symbols → Prop

/-- Changes to the members of an object. -/
inductive Rearranged (shape : Shape) : List Member → List Member → Prop
  | perm {members others : List Member} (hperm : members.Perm others) :
      Rearranged shape members others
  | unknown {member : Member} {members : List Member} {name : String}
      (hkey : Spells member.key name.toList) (hname : name ∉ shape.names) :
      Rearranged shape members (member :: members)
  | null {member : Member} {members : List Member} {name : String}
      (hkey : Spells member.key name.toList) (hname : name ∈ shape.mayLack)
      (habsent : ∀ other ∈ members, ¬Spells other.key name.toList)
      (hnull : member.value = nullText) : Rearranged shape members (member :: members)
  | value {member other : Member} {members : List Member} {name : String}
      (hkey : Spells member.key name.toList) (hother : Spells other.key name.toList)
      (halike : shape.alike name member.value other.value) :
      Rearranged shape (member :: members) (other :: members)
  | symm {members others : List Member} (hrearranged : Rearranged shape members others) :
      Rearranged shape others members
  | trans {members others more : List Member} (hfirst : Rearranged shape members others)
      (hsecond : Rearranged shape others more) : Rearranged shape members more

/-- Objects with rearranged members. -/
inductive ObjectAlike (shape : Shape) : Symbols → Symbols → Prop
  | intro {members others : List Member} {gap otherGap : Symbols}
      (hmembers : ∀ member ∈ members, Value member.value) (hgap : Blank gap)
      (hothers : ∀ other ∈ others, Value other.value) (hotherGap : Blank otherGap)
      (hrearranged : Rearranged shape members others) :
      ObjectAlike shape (objectText members gap) (objectText others otherGap)

/-- Lists of values that are alike one by one. -/
inductive ListAlike (alike : Symbols → Symbols → Prop) : Symbols → Symbols → Prop
  | intro {items others : List Item} {gap otherGap : Symbols}
      (hitems : ∀ item ∈ items, Value item.value) (hgap : Blank gap)
      (hothers : ∀ other ∈ others, Value other.value) (hotherGap : Blank otherGap)
      (halike : List.Forall₂ (fun item other => alike item.value other.value) items others) :
      ListAlike alike (listText items gap) (listText others otherGap)

/-- No reader of this kind tells values apart that are alike. -/
def Blurs {α : Type} (reader : Reader α) (alike : Symbols → Symbols → Prop) : Prop :=
  ∀ {value other : Symbols}, alike value other → ∀ a, Reads reader value a ↔ Reads reader other a

/-- A value that is `null` leaves the slot as it is in the empty record. -/
def Slot.Nullable {σ : Type} (slot : Slot σ) (empty : σ) : Prop :=
  ∃ a, Reads slot.reader nullText a ∧ slot.set empty a = empty

theorem nullable_ofOptional {σ α : Type} {name : String} {reader : Reader α}
    {hlocal : Local reader} {set : σ → Option α → σ} {empty : σ} (hset : set empty none = empty) :
    (Slot.ofOptional name hlocal set).Nullable empty :=
  ⟨none, reads_optional_null reader, hset⟩

/-- The shape says about the slots of a record what is the case. -/
structure Shape.Fits {σ : Type} (shape : Shape) (slots : List (Slot σ)) (empty : σ) : Prop where
  names : shape.names = slots.map Slot.name
  mayLack : shape.mayLack ⊆ shape.names
  nullable : ∀ slot ∈ slots, slot.name ∈ shape.mayLack → slot.Nullable empty
  blurs : ∀ slot ∈ slots, Blurs slot.reader (shape.alike slot.name)

variable {σ α : Type} {shape : Shape} {slots : List (Slot σ)} {empty r : σ}

theorem Rearranged.fills_iff {members others : List Member} (hlawful : Lawful slots)
    (hfits : shape.Fits slots empty) (hrearranged : Rearranged shape members others) :
    Fills slots members empty r ↔ Fills slots others empty r := by
  induction hrearranged with
  | perm hperm => exact ⟨.perm hlawful hperm, .perm hlawful hperm.symm⟩
  | unknown hkey hname =>
      refine (fills_unknown_iff hkey fun slot hslot heq => hname ?_).symm
      rw [hfits.names]
      exact List.mem_map.mpr ⟨slot, hslot, heq⟩
  | null hkey hname habsent hnull =>
      obtain ⟨slot, hslot, rfl⟩ := List.mem_map.mp (hfits.names ▸ hfits.mayLack hname)
      obtain ⟨a, hreads, hempty⟩ := hfits.nullable slot hslot hname
      rw [fills_known_iff hlawful hslot hkey, hnull]
      constructor
      · exact fun hfills => ⟨habsent, a, hreads, by rwa [hempty]⟩
      · rintro ⟨_, b, hreads', hfills⟩
        obtain rfl := hreads.unique hreads'
        rwa [hempty] at hfills
  | @value member other members name hkey hother halike =>
      -- the values of members that name no slot are never looked at
      by_cases hname : ∃ slot ∈ slots, slot.name = name
      · obtain ⟨slot, hslot, rfl⟩ := hname
        simp only [fills_known_iff hlawful hslot hkey, fills_known_iff hlawful hslot hother,
          hfits.blurs slot hslot halike]
      · have hunknown : ∀ slot ∈ slots, slot.name ≠ name := by simpa using hname
        rw [fills_unknown_iff hkey hunknown, fills_unknown_iff hother hunknown]
  | symm _ ih => exact ih.symm
  | trans _ _ ih ih' => exact ih.trans ih'

/-! ## Readers that do not tell alike values apart -/

theorem ObjectAlike.ne_null {value other : Symbols} (halike : ObjectAlike shape value other) :
    (Value value ∧ value ≠ nullText) ∧ Value other ∧ other ≠ nullText := by
  obtain ⟨hmembers, hgap, hothers, hotherGap, _⟩ := halike
  exact ⟨⟨.object hgap hmembers, by simp [objectText, nullText]⟩,
    .object hotherGap hothers, by simp [objectText, nullText]⟩

theorem blurs_optional {reader : Reader α} (hblurs : Blurs reader (ObjectAlike shape)) :
    Blurs (optional reader) (ObjectAlike shape) := by
  intro value other halike a
  obtain ⟨⟨hvalue, hnull⟩, hother, hotherNull⟩ := halike.ne_null
  rw [reads_optional_iff hvalue hnull, reads_optional_iff hother hotherNull]
  exact exists_congr fun b => and_congr_left fun _ => hblurs halike b

/-- What holds of related items alike holds of related lists alike, item by item. -/
theorem forall₂_congr_left {α β : Type} {related : α → α → Prop} {holds : α → β → Prop}
    (hcongr : ∀ {a b}, related a b → ∀ c, holds a c ↔ holds b c) {as bs : List α}
    (hrelated : List.Forall₂ related as bs) {cs : List β} :
    List.Forall₂ holds as cs ↔ List.Forall₂ holds bs cs := by
  induction hrelated generalizing cs with
  | nil => rfl
  | cons hfirst _ ih =>
      cases cs with
      | nil => simp
      | cons c cs => simp only [List.forall₂_cons, hcongr hfirst c, ih]

theorem blurs_list {reader : Reader α} (hlocal : Local reader)
    {alike : Symbols → Symbols → Prop} (hblurs : Blurs reader alike) :
    Blurs (list reader) (ListAlike alike) := by
  rintro _ _ ⟨hitems, hgap, hothers, hotherGap, halike⟩ found
  rw [reads_list_iff hlocal hitems hgap, reads_list_iff hlocal hothers hotherGap]
  exact forall₂_congr_left (fun halike => hblurs halike) halike

end TimingReport.Json
