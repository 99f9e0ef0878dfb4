import TimingReport.Proofs.Json.Rearranged
import TimingReport.Proofs.Json.Writing

/-!
# Records in another form

A record may be put from one of its forms into the other: an object into the list of its fields,
or a list into an object. A field that is left out of an object has to be `null` in a list if
others follow it. The records inside of a record may be put into another form, too. None of this
changes what is read.
-/

namespace TimingReport.Json

variable {σ α : Type}

/-! ## Fields and records -/

/-- The same field of a record in two forms: the texts are the same or alike, or the field is
left out of one form and `null` in the other. -/
inductive FieldAlike (shape : Shape) (name : String) : Option Symbols → Option Symbols → Prop
  | same (text : Option Symbols) : FieldAlike shape name text text
  | value {value other : Symbols} (halike : shape.alike name value other) :
      FieldAlike shape name (some value) (some other)
  | added (hname : name ∈ shape.mayLack) : FieldAlike shape name none (some nullText)
  | removed (hname : name ∈ shape.mayLack) : FieldAlike shape name (some nullText) none

/-- A record in two forms. -/
inductive FormAlike (shape : Shape) : Symbols → Symbols → Prop
  | intro {texts others : Texts} {value other : Symbols} (hvalue : Holds shape.names texts value)
      (hother : Holds shape.names others other)
      (hfields : ∀ name ∈ shape.names, FieldAlike shape name (texts name) (others name)) :
      FormAlike shape value other

/-- A value with fields is not null. -/
theorem Holds.ne_null {names : List String} {texts : Texts} {value : Symbols}
    (hholds : Holds names texts value) : value ≠ nullText := by
  cases hholds with
  | named => simp [objectText, nullText]
  | positional => simp [listText, nullText]

/-! ## What is read -/

/-- What the text of a field makes of a record. -/
def Slot.Takes (slot : Slot σ) (r : σ) : Option Symbols → σ → Prop
  | none, r' => r' = r
  | some text, r' => ∃ a, Reads slot.reader text a ∧ r' = slot.set r a

variable {slot other : Slot σ} {slots : List (Slot σ)} {texts others : Texts} {shape : Shape}
  {text : Option Symbols} {r r' s : σ}

/-- The first slot takes its field, and the others go on from there. -/
theorem sets_cons_iff : Sets texts (slot :: slots) r r' ↔
    ∃ s, slot.Takes r (texts slot.name) s ∧ Sets texts slots s r' := by
  cases htext : texts slot.name with
  | none =>
      rw [sets_cons_none_iff htext]
      simp only [Slot.Takes, exists_eq_left]
  | some text =>
      rw [sets_cons_some_iff htext]
      constructor
      · rintro ⟨a, hreads, hsets⟩
        exact ⟨_, ⟨a, hreads, rfl⟩, hsets⟩
      · rintro ⟨_, ⟨a, hreads, rfl⟩, hsets⟩
        exact ⟨a, hreads, hsets⟩

/-- A slot that `null` leaves as it is stays so when another slot is set. -/
theorem Slot.Nullable.takes (hnullable : other.Nullable r) (hcommutes : slot.Commutes other)
    (htakes : slot.Takes r text s) : other.Nullable s := by
  obtain ⟨a, hreads, hset⟩ := hnullable
  cases text with
  | none =>
      obtain rfl := htakes
      exact ⟨a, hreads, hset⟩
  | some text =>
      obtain ⟨b, -, rfl⟩ := htakes
      refine ⟨a, hreads, ?_⟩
      rw [hcommutes, hset]

/-- To a slot that may lack its field, null is the same as no field. -/
theorem Slot.Nullable.takes_null_iff (hnullable : slot.Nullable r) :
    slot.Takes r (some nullText) s ↔ slot.Takes r none s := by
  obtain ⟨a, hreads, hset⟩ := hnullable
  constructor
  · rintro ⟨b, hother, rfl⟩
    obtain rfl := hreads.unique hother
    exact hset
  · rintro rfl
    exact ⟨a, hreads, hset.symm⟩

/-- A slot takes fields that are alike to the same effect. -/
theorem FieldAlike.takes_iff {text other : Option Symbols}
    (halike : FieldAlike shape slot.name text other)
    (hblurs : Blurs slot.reader (shape.alike slot.name))
    (hnullable : slot.name ∈ shape.mayLack → slot.Nullable r) :
    slot.Takes r text s ↔ slot.Takes r other s := by
  cases halike with
  | same => rfl
  | value halike => exact exists_congr fun a => and_congr_left fun _ => hblurs halike a
  | added hname => exact (hnullable hname).takes_null_iff.symm
  | removed hname => exact (hnullable hname).takes_null_iff

/-- Fields that are alike set the slots of a record to the same values. -/
theorem sets_iff_of_fieldAlike (hlawful : Lawful slots)
    (hblurs : ∀ slot ∈ slots, Blurs slot.reader (shape.alike slot.name))
    (hnullable : ∀ slot ∈ slots, slot.name ∈ shape.mayLack → slot.Nullable r)
    (hfields : ∀ slot ∈ slots,
      FieldAlike shape slot.name (texts slot.name) (others slot.name)) :
    Sets texts slots r r' ↔ Sets others slots r r' := by
  induction slots generalizing r with
  | nil => rfl
  | cons slot slots ih =>
      rw [List.forall_mem_cons] at hblurs hfields
      obtain ⟨hslot, hnullable⟩ := List.forall_mem_cons.mp hnullable
      obtain ⟨hcommutes, -⟩ := List.pairwise_cons.mp hlawful.commutes
      rw [sets_cons_iff, sets_cons_iff]
      refine exists_congr fun s => ?_
      rw [hfields.1.takes_iff hblurs.1 hslot]
      refine and_congr_right fun htakes => ih hlawful.tail hblurs.2 ?_ hfields.2
      intro other hother hname
      exact (hnullable other hother hname).takes (hcommutes other hother) htakes

/-- Forms whose fields are alike fill a record alike. -/
theorem FormAlike.sets_iff {empty : σ} (hlawful : Lawful slots) (hfits : shape.Fits slots empty)
    (hfields : ∀ name ∈ shape.names, FieldAlike shape name (texts name) (others name)) :
    Sets texts slots empty r ↔ Sets others slots empty r := by
  refine sets_iff_of_fieldAlike hlawful hfits.blurs hfits.nullable fun slot hslot => ?_
  refine hfields slot.name ?_
  rw [hfits.names]
  exact List.mem_map_of_mem hslot

theorem blurs_optional_form {reader : Reader α} (hblurs : Blurs reader (FormAlike shape)) :
    Blurs (optional reader) (FormAlike shape) := by
  intro value other halike a
  obtain ⟨hvalue, hother, -⟩ := id halike
  rw [reads_optional_iff hvalue.value hvalue.ne_null,
    reads_optional_iff hother.value hother.ne_null]
  exact exists_congr fun b => and_congr_left fun _ => hblurs halike b

/-! ## Lists of fields -/

/-- The texts of the fields whose values are the items of a list. -/
def placed (names : List String) (items : List Item) : Texts := fun name =>
  items[names.idxOf name]?.map Item.value

/-- A list holds its items in the fields of their places. -/
theorem holds_list {names : List String} (hnodup : names.Nodup) {items : List Item} {gap : Symbols}
    (hitems : ∀ item ∈ items, Value item.value) (hgap : Blank gap)
    (hlength : items.length ≤ names.length) :
    Holds names (placed names items) (listText items gap) := by
  refine .positional hitems hgap hlength fun i name hname => ?_
  obtain ⟨hi, rfl⟩ := List.getElem?_eq_some_iff.mp hname
  rw [placed, hnodup.idxOf_getElem]

/-! ## Written lists and records -/

/-- A list of values is a value. -/
theorem value_list {values : List (List Char)}
    (hvalues : ∀ value ∈ values, Value (value.map some)) :
    Value ((Write.list values).map some) := by
  rw [map_some_list]
  exact .list blank_nil (List.forall_mem_map.mpr hvalues)

/-- Lists are alike if their items are, one by one. -/
theorem listAlike_written {alike : Symbols → Symbols → Prop} {values others : List (List Char)}
    (hvalues : ∀ value ∈ values, Value (value.map some))
    (hothers : ∀ other ∈ others, Value (other.map some))
    (halike : List.Forall₂ (fun value other => alike (value.map some) (other.map some)) values
      others) :
    ListAlike alike ((Write.list values).map some) ((Write.list others).map some) := by
  rw [map_some_list, map_some_list]
  refine .intro (List.forall_mem_map.mpr hvalues) blank_nil (List.forall_mem_map.mpr hothers)
    blank_nil ?_
  rwa [List.forall₂_map_left_iff, List.forall₂_map_right_iff]

/-- The members of the fields that are given, of the first ones in order. -/
def Write.givenMembers (names : List String) (values : List (Option (List Char))) :
    List (String × List Char) :=
  (names.zip values).filterMap fun field => field.2.map (field.1, ·)

/-- The items of the first fields in order; a field that is not given is `null`. -/
def Write.givenItems (values : List (Option (List Char))) : List (List Char) :=
  values.map fun value => value.getD ['n', 'u', 'l', 'l']

theorem mem_names_of_mem_givenMembers {names : List String} {values : List (Option (List Char))}
    {m : String × List Char} (hm : m ∈ Write.givenMembers names values) :
    m.1 ∈ names ∧ some m.2 ∈ values := by
  obtain ⟨⟨name, value⟩, hfield, hgiven⟩ := List.mem_filterMap.mp hm
  obtain ⟨hname, hvalue⟩ := List.of_mem_zip hfield
  obtain ⟨text, rfl, rfl⟩ := Option.map_eq_some_iff.mp hgiven
  exact ⟨hname, hvalue⟩

/-- The member of a name has the value at the place of the name, if there is one. -/
theorem lookup_givenMembers {names : List String} (hnodup : names.Nodup)
    (values : List (Option (List Char))) {name : String} (hname : name ∈ names) :
    (Write.givenMembers names values).lookup name = values[names.idxOf name]?.join := by
  induction names generalizing values with
  | nil => contradiction
  | cons first names ih =>
      obtain ⟨hfresh, hnodup⟩ := List.nodup_cons.mp hnodup
      cases values with
      | nil => rfl
      | cons value values =>
          have hmembers : Write.givenMembers (first :: names) (value :: values) =
              (value.map (first, ·)).toList ++ Write.givenMembers names values := by
            cases value <;> rfl
          rw [hmembers]
          rcases List.mem_cons.mp hname with rfl | hname
          · rw [List.idxOf_cons_self, List.getElem?_cons_zero]
            cases value with
            | some text => simp
            | none =>
                -- no later field has this name
                refine List.lookup_eq_none_iff.mpr fun m hm => ?_
                have hne : m.1 ≠ name := fun heq =>
                  hfresh (heq ▸ (mem_names_of_mem_givenMembers hm).1)
                simp [hne.symm]
          · have hne : first ≠ name := by
              rintro rfl
              exact hfresh hname
            rw [List.idxOf_cons_ne _ hne, List.getElem?_cons_succ, ← ih hnodup values hname]
            cases value with
            | none => rfl
            | some text => simp [List.lookup_cons, beq_eq_false_iff_ne.mpr hne.symm]

/-- No name is given twice. -/
theorem nodup_givenMembers {names : List String} (hnodup : names.Nodup)
    (values : List (Option (List Char))) :
    ((Write.givenMembers names values).map Prod.fst).Nodup := by
  have hsublist : ((Write.givenMembers names values).map Prod.fst).Sublist names := by
    induction names generalizing values with
    | nil => simp [Write.givenMembers]
    | cons first names ih =>
        cases values with
        | nil => exact List.nil_sublist _
        | cons value values =>
            have hrest := ih (List.nodup_cons.mp hnodup).2 values
            cases value with
            | none => exact hrest.cons first
            | some text => exact hrest.cons_cons first
  exact hsublist.nodup hnodup

/-- A written list and a written object with the same fields are the same record. -/
theorem formAlike_written (hnodup : shape.names.Nodup) {values : List (List Char)}
    {members : List (String × List Char)} (hlength : values.length ≤ shape.names.length)
    (hvalues : ∀ value ∈ values, Value (value.map some))
    (hdistinct : (members.map Prod.fst).Nodup) (hmembers : ∀ m ∈ members, Value (m.2.map some))
    (hfields : ∀ name ∈ shape.names, FieldAlike shape name
      (values[shape.names.idxOf name]?.map (List.map some)) (Write.texts members name)) :
    FormAlike shape ((Write.list values).map some) ((Write.object members).map some) := by
  rw [map_some_list]
  refine .intro (holds_list hnodup (List.forall_mem_map.mpr hvalues) blank_nil ?length)
    (holds_object _ hdistinct hmembers) ?fields
  case length => rwa [List.length_map]
  case fields =>
    intro name hname
    have hplaced : placed shape.names (values.map fun value => .bare (value.map some)) name =
        values[shape.names.idxOf name]?.map (List.map some) := by
      simp [placed, Item.bare, Function.comp_def]
    rw [hplaced]
    exact hfields name hname

/-- However many of the first fields are written and whichever of them are given: the object of
those that are given and the list with `null` for the others are the same record. -/
theorem formAlike_given (hnodup : shape.names.Nodup) {values : List (Option (List Char))}
    (hlength : values.length ≤ shape.names.length)
    (hvalues : ∀ text, some text ∈ values → Value (text.map some))
    (hmayLack : ∀ name ∈ shape.names, values[shape.names.idxOf name]? = some none →
      name ∈ shape.mayLack) :
    FormAlike shape ((Write.list (Write.givenItems values)).map some)
      ((Write.object (Write.givenMembers shape.names values)).map some) := by
  refine formAlike_written hnodup ?length ?values (nodup_givenMembers hnodup values) ?members
    ?fields
  case length => rwa [Write.givenItems, List.length_map]
  case values =>
    refine List.forall_mem_map.mpr fun value hvalue => ?_
    cases value with
    | none => exact .null
    | some text => exact hvalues text hvalue
  case members =>
    intro m hm
    exact hvalues m.2 (mem_names_of_mem_givenMembers hm).2
  case fields =>
    intro name hname
    rw [Write.givenItems, List.getElem?_map, Write.texts, lookup_givenMembers hnodup values hname]
    cases hvalue : values[shape.names.idxOf name]? with
    | none => exact .same none
    | some value =>
        cases value with
        | none => exact .removed (hmayLack name hname hvalue)
        | some text => exact .same _

end TimingReport.Json
