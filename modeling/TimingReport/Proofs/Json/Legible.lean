import TimingReport.Proofs.Json.Positions

/-!
# Where bytes that are no text may stand

Whatever is read as a text or as a number consists of characters, and so do the keys of all
members of a record. Bytes that are no text can stand in values that are passed over, and there
between the quotes of strings.
-/

namespace TimingReport.Json

variable {α β σ : Type} {reader : Reader α} {s value : Symbols}

/-! ## Characters -/

/-- All symbols are characters. -/
def Legible (s : Symbols) : Prop := ∀ c ∈ s, c.isSome

theorem Legible.append {other : Symbols} (hs : Legible s) (hother : Legible other) :
    Legible (s ++ other) :=
  List.forall_mem_append.mpr ⟨hs, hother⟩

theorem legible_map_some (text : List Char) : Legible (text.map some) := by
  simp [Legible]

/-- What is a hexadecimal digit is a character. -/
theorem isSome_of_hexValue? {c : Option Char} {n : Nat} (hc : hexValue? c = some n) : c.isSome := by
  cases c with
  | none => contradiction
  | some c => rfl

theorem legible_of_codeUnit? {a b c d : Option Char} {n : Nat}
    (hunit : codeUnit? a b c d = some n) : Legible [a, b, c, d] := by
  obtain ⟨i, j, k, l, ha, hb, hc, hd, -⟩ := codeUnit?_eq_some_iff.mp hunit
  simp [Legible, isSome_of_hexValue? ha, isSome_of_hexValue? hb, isSome_of_hexValue? hc,
    isSome_of_hexValue? hd]

/-- What spells a text consists of characters. -/
theorem Spells.legible {body : Symbols} {text : List Char} (hspells : Spells body text) :
    Legible body := by
  induction hspells with
  | nil => exact List.forall_mem_nil _
  | plain _ _ _ _ ih => exact List.forall_mem_cons.mpr ⟨rfl, ih⟩
  | short _ _ ih => exact List.forall_mem_cons.mpr ⟨rfl, List.forall_mem_cons.mpr ⟨rfl, ih⟩⟩
  | unit hunit _ _ _ ih =>
      exact ((legible_map_some ['\\', 'u']).append (legible_of_codeUnit? hunit)).append ih
  | pair hfirst _ hsecond _ _ ih =>
      have hpair := (legible_map_some ['\\', 'u']).append (legible_of_codeUnit? hsecond)
      exact ((legible_map_some ['\\', 'u']).append (legible_of_codeUnit? hfirst)).append
        (hpair.append ih)

/-- All symbols are characters, and none is a quote. -/
def Plain (s : Symbols) : Prop := ∀ c ∈ s, c.isSome ∧ c ≠ some '"'

/-- What is plain consists of characters. -/
theorem Plain.legible (hs : Plain s) : Legible s := fun c hc => (hs c hc).1

theorem Plain.append {other : Symbols} (hs : Plain s) (hother : Plain other) :
    Plain (s ++ other) :=
  List.forall_mem_append.mpr ⟨hs, hother⟩

/-- The characters of a text without quotes are plain. -/
theorem plain_map_some {text : List Char} (htext : '"' ∉ text) : Plain (text.map some) := by
  intro c hc
  obtain ⟨d, hd, rfl⟩ := List.mem_map.mp hc
  refine ⟨rfl, fun hquote => htext ?_⟩
  exact Option.some.inj hquote ▸ hd

/-- Symbols of a kind to which characters belong, but no quote. -/
theorem plain_of_forall {kind : Option Char → Bool} (hnone : ¬kind none)
    (hquote : ¬kind (some '"')) (hs : ∀ c ∈ s, kind c) : Plain s := by
  intro c hc
  cases c with
  | none => exact absurd (hs none hc) hnone
  | some c => exact ⟨rfl, fun heq => hquote (heq ▸ hs _ hc)⟩

theorem Blank.plain {gap : Symbols} (hgap : Blank gap) : Plain gap :=
  plain_of_forall (by decide) (by decide) hgap

theorem Digits.plain {digits : Symbols} (hdigits : Digits digits) : Plain digits :=
  plain_of_forall (by decide) (by decide) hdigits.2

theorem Whole.plain {whole : Symbols} (hwhole : Whole whole) : Plain whole := by
  cases hwhole with
  | zero => exact @plain_map_some ['0'] (by decide)
  | digits _ hdigits => exact hdigits.plain

theorem Fraction.plain {fraction : Symbols} (hfraction : Fraction fraction) : Plain fraction := by
  cases hfraction with
  | absent => exact List.forall_mem_nil _
  | present hdigits => exact (@plain_map_some ['.'] (by decide)).append hdigits.plain

theorem Sign.plain {sign : Symbols} (hsign : Sign sign) : Plain sign := by
  cases hsign with
  | absent => exact List.forall_mem_nil _
  | plus => exact @plain_map_some ['+'] (by decide)
  | minus => exact @plain_map_some ['-'] (by decide)

theorem Exponent.plain {exponent : Symbols} (hexponent : Exponent exponent) : Plain exponent := by
  cases hexponent with
  | absent => exact List.forall_mem_nil _
  | present hletter hsign hdigits =>
      refine List.forall_mem_cons.mpr ⟨?_, hsign.plain.append hdigits.plain⟩
      rcases hletter with rfl | rfl
      · exact ⟨rfl, by decide⟩
      · exact ⟨rfl, by decide⟩

/-- Numbers consist of characters other than quotes. -/
theorem Unsigned.plain {text : Symbols} (hnumber : Unsigned text) : Plain text := by
  obtain ⟨hwhole, hfraction, hexponent⟩ := hnumber
  exact hwhole.plain.append (hfraction.plain.append hexponent.plain)

/-! ## Strings among characters -/

/-- What is no character stands between the quotes of strings. -/
inductive Quoted : Symbols → Prop
  | nil : Quoted []
  | char {c : Char} {rest : Symbols} (hquote : c ≠ '"') (hrest : Quoted rest) :
      Quoted (some c :: rest)
  | string {body rest : Symbols} (hbody : Body body) (hrest : Quoted rest) :
      Quoted (stringText body ++ rest)

/-- One behind the other, two texts keep between quotes what is no character. -/
theorem Quoted.append {other : Symbols} (hs : Quoted s) (hother : Quoted other) :
    Quoted (s ++ other) := by
  induction hs with
  | nil => exact hother
  | char hquote _ ih => exact .char hquote ih
  | string hbody _ ih =>
      rw [List.append_assoc]
      exact .string hbody ih

/-- Among plain symbols nothing has to stand between quotes. -/
theorem Plain.quoted (hs : Plain s) : Quoted s := by
  induction s with
  | nil => exact .nil
  | cons c s ih =>
      obtain ⟨⟨hc, hquote⟩, hrest⟩ := List.forall_mem_cons.mp hs
      obtain ⟨d, rfl⟩ := Option.isSome_iff_exists.mp hc
      exact .char (fun hd => hquote (hd ▸ rfl)) (ih hrest)

/-- Parts divided by commas keep between quotes what is no character. -/
theorem quoted_divided {first : Bool} {texts : List Symbols}
    (htexts : ∀ text ∈ texts, Quoted text) : Quoted (divided first texts) := by
  induction texts generalizing first with
  | nil => exact .nil
  | cons text texts ih =>
      obtain ⟨htext, htexts⟩ := List.forall_mem_cons.mp htexts
      cases first with
      | true => exact htext.append (ih htexts)
      | false => exact .char (by decide) (htext.append (ih htexts))

/-- A bracket around texts of parts. -/
theorem quoted_bracket {opener closer : Char} (hopener : opener ≠ '"') (hcloser : closer ≠ '"')
    {texts : List Symbols} (htexts : ∀ text ∈ texts, Quoted text) {gap : Symbols}
    (hgap : Blank gap) :
    Quoted (some opener :: (divided true texts ++ (gap ++ [some closer]))) :=
  .char hopener ((quoted_divided htexts).append (hgap.plain.quoted.append (.char hcloser .nil)))

theorem Item.quoted {item : Item} (hvalue : Quoted item.value) : Quoted item.text :=
  item.blank_before.plain.quoted.append (hvalue.append item.blank_after.plain.quoted)

/-- A member keeps between quotes what is no character if its value does. -/
theorem Member.quoted {member : Member} (hvalue : Quoted member.value) : Quoted member.text := by
  have hbehind : Quoted (member.gap ++ some ':' :: member.toItem.text) :=
    member.blank_gap.plain.quoted.append (.char (by decide) (Item.quoted hvalue))
  have hkey := Quoted.string member.body_key hbehind
  simpa [Member.text, stringText] using member.blank_lead.plain.quoted.append hkey

/-- Outside of its strings a value consists of characters. -/
theorem Value.quoted (hvalue : Value value) : Quoted value := by
  induction hvalue with
  | null => exact (plain_map_some (by decide)).quoted
  | true => exact (plain_map_some (by decide)).quoted
  | false => exact (plain_map_some (by decide)).quoted
  | unsigned hnumber => exact hnumber.plain.quoted
  | negative hnumber => exact .char (by decide) hnumber.plain.quoted
  | string hbody => simpa using Quoted.string hbody .nil
  | list hgap _ ih =>
      refine quoted_bracket (by decide) (by decide) (List.forall_mem_map.mpr ?_) hgap
      exact fun item hitem => Item.quoted (ih item hitem)
  | object hgap _ ih =>
      refine quoted_bracket (by decide) (by decide) (List.forall_mem_map.mpr ?_) hgap
      exact fun member hmember => Member.quoted (ih member hmember)

/-! ## Records with members that are passed over -/

/-- The fields of a record by name, and how the value of each may look. -/
abbrev Layout := List (String × (Symbols → Prop))

/-- A value of the grammar that consists of characters. -/
structure Clear (s : Symbols) : Prop where
  value : Value s
  legible : Legible s

/-- A value that may be `null` instead. -/
def OrNull (looks : Symbols → Prop) (value : Symbols) : Prop :=
  value = nullText ∨ looks value

/-- A list whose items all look as they should. -/
inductive ListOf (looks : Symbols → Prop) : Symbols → Prop
  | intro {items : List Item} {gap : Symbols} (hgap : Blank gap)
      (hitems : ∀ item ∈ items, looks item.value) : ListOf looks (listText items gap)

/-- A member with the name of a field, or one that is passed over. The key is legible in both
cases; what is no character in a value that is passed over lies within its strings. -/
inductive MemberOf (layout : Layout) (member : Member) : Prop
  | field {name : String} {looks : Symbols → Prop} (hfield : (name, looks) ∈ layout)
      (hkey : Spells member.key name.toList) (hvalue : looks member.value)
  | skipped {name : String} (hkey : Spells member.key name.toList)
      (hname : ∀ field ∈ layout, field.1 ≠ name) (hvalue : Value member.value)
      (hquoted : Quoted member.value)

/-- A record in either of its forms: an object, or a list of its first fields. -/
inductive RecordOf (layout : Layout) : Symbols → Prop
  | named {members : List Member} {gap : Symbols} (hgap : Blank gap)
      (hmembers : ∀ member ∈ members, MemberOf layout member) :
      RecordOf layout (objectText members gap)
  | positional {items : List Item} {gap : Symbols} (hgap : Blank gap)
      (hitems : List.Forall₂ (fun item field => field.2 item.value) items
        (layout.take items.length)) : RecordOf layout (listText items gap)

/-! ## What is read looks as it should -/

/-- All values on which the reader succeeds look that way. -/
def Finds (reader : Reader α) (looks : Symbols → Prop) : Prop :=
  ∀ ⦃value : Symbols⦄ ⦃a : α⦄, Value value → Reads reader value a → looks value

variable {looks : Symbols → Prop}

/-- Every element of the first list has a partner in the second. -/
theorem exists_mem_of_forall₂ {α β : Type*} {related : α → β → Prop} {as : List α}
    {bs : List β} {a : α} (hall : List.Forall₂ related as bs) (ha : a ∈ as) :
    ∃ b ∈ bs, related a b := by
  induction hall with
  | nil => contradiction
  | cons hfirst _ ih =>
      rcases List.mem_cons.mp ha with rfl | ha
      · exact ⟨_, List.mem_cons_self, hfirst⟩
      · obtain ⟨b, hb, hrelated⟩ := ih ha
        exact ⟨b, List.mem_cons_of_mem _ hb, hrelated⟩

/-- A text is read from a string that spells it. -/
theorem exists_spells_of_reads {a : String} (hvalue : Value value) (hreads : Reads text value a) :
    ∃ body, value = stringText body ∧ Spells body a.toList := by
  have hread := hreads [] ends_nil
  cases hvalue with
  | string hbody => exact ⟨_, rfl, (reads_text_iff hbody).mp hreads⟩
  | unsigned hnumber =>
      rw [text_unsigned hnumber] at hread
      contradiction
  | _ => cases hread

/-- What a text is read from consists of characters. -/
theorem finds_text : Finds text Clear := by
  intro value a hvalue hreads
  obtain ⟨body, rfl, hspells⟩ := exists_spells_of_reads hvalue hreads
  refine ⟨hvalue, ?_⟩
  exact (legible_map_some ['"']).append (hspells.legible.append (legible_map_some ['"']))

/-- What a number is read from consists of characters. -/
theorem finds_number (wanted : String) : Finds (number wanted) Clear := by
  intro value n hvalue hreads
  have hread := hreads [] ends_nil
  cases hvalue with
  | unsigned hnumber => exact ⟨.unsigned hnumber, hnumber.plain.legible⟩
  | negative hnumber =>
      exact ⟨.negative hnumber, (legible_map_some ['-']).append hnumber.plain.legible⟩
  | _ => cases hread

/-- What is made of a value is read from no other values. -/
theorem Finds.map (hfinds : Finds reader looks) (hlocal : Local reader) (f : α → β) :
    Finds (fun s => (reader s).map fun (a, rest) => (f a, rest)) looks := by
  intro value b hvalue hreads
  obtain ⟨⟨a, left⟩, hread, -⟩ := Outcome.map_eq_ok_iff.mp (hreads [] ends_nil)
  exact hfinds hvalue (hlocal.reads hvalue ends_nil hread)

/-- A value that is converted is read from no other values. -/
theorem Finds.convert (hfinds : Finds reader looks) (hlocal : Local reader)
    (f : α → Except Fault β) : Finds (fun s => do
      let (a, rest) ← reader s
      let b ← f a
      return (b, rest)) looks := by
  intro value b hvalue hreads
  obtain ⟨⟨a, left⟩, hread, -⟩ := Outcome.bind_eq_ok_iff.mp (hreads [] ends_nil)
  exact hfinds hvalue (hlocal.reads hvalue ends_nil hread)

theorem finds_real : Finds real Clear := by
  rw [real_eq]
  exact (finds_number "f64").map (local_number "f64") Number.toReal

theorem finds_natural (bits : Nat) : Finds (natural bits) Clear := by
  rw [natural_eq]
  exact (finds_number _).convert (local_number _) (Number.toNatural bits)

/-- An optional value is read from null or from what the value is read from. -/
theorem Finds.optional (hfinds : Finds reader looks) : Finds (optional reader) (OrNull looks) := by
  intro value a hvalue hreads
  by_cases hnull : value = nullText
  · exact .inl hnull
  · obtain ⟨b, hreads, -⟩ := (reads_optional_iff hvalue hnull).mp hreads
    exact .inr (hfinds hvalue hreads)

theorem Finds.optional_clear (hfinds : Finds reader Clear) :
    Finds (Json.optional reader) Clear := by
  intro value a hvalue hreads
  rcases hfinds.optional hvalue hreads with rfl | hclear
  · exact ⟨.null, legible_map_some _⟩
  · exact hclear

/-- A list is read from a list, item by item. -/
theorem exists_items_of_reads {found : List α} (hlocal : Local reader) (hvalue : Value value)
    (hreads : Reads (list reader) value found) :
    ∃ items gap, value = listText items gap ∧ Blank gap ∧ (∀ item ∈ items, Value item.value) ∧
      List.Forall₂ (fun item a => Reads reader item.value a) items found := by
  have hread := hreads [] ends_nil
  cases hvalue with
  | list hgap hitems =>
      exact ⟨_, _, rfl, hgap, hitems, (reads_list_iff hlocal hitems hgap).mp hreads⟩
  | unsigned hnumber =>
      obtain ⟨fault, hfault⟩ := list_unsigned reader hnumber []
      rw [hfault] at hread
      contradiction
  | _ => cases hread

/-- A list is read from lists whose items all look as they should. -/
theorem Finds.list (hfinds : Finds reader looks) (hlocal : Local reader) :
    Finds (list reader) (ListOf looks) := by
  intro value found hvalue hreads
  obtain ⟨items, gap, rfl, hgap, hitems, hfound⟩ := exists_items_of_reads hlocal hvalue hreads
  refine .intro hgap fun item hitem => ?_
  obtain ⟨a, -, hreads⟩ := exists_mem_of_forall₂ hfound hitem
  exact hfinds (hitems item hitem) hreads

variable {slots : List (Slot σ)} {layout : Layout} {members : List Member} {items : List Item}
  {r r' : σ}

/-- The slots are the fields of the layout, and what they are read from looks as it says. -/
def Layout.Fits (layout : Layout) (slots : List (Slot σ)) : Prop :=
  List.Forall₂ (fun field slot => field.1 = slot.name ∧ Finds slot.reader field.2) layout slots

/-- Members that fill the fields of a layout are members of it. -/
theorem Fills.memberOf (hfits : layout.Fits slots) (hfills : Fills slots members r r')
    (hmembers : ∀ member ∈ members, Value member.value) :
    ∀ member ∈ members, MemberOf layout member := by
  induction hfills with
  | nil => exact List.forall_mem_nil _
  | known hslot hkey _ hreads _ ih =>
      obtain ⟨hvalue, hmembers⟩ := List.forall_mem_cons.mp hmembers
      refine List.forall_mem_cons.mpr ⟨?_, ih hmembers⟩
      obtain ⟨field, hfield, hname, hfinds⟩ := exists_mem_of_forall₂ hfits.flip hslot
      exact .field hfield (hname ▸ hkey) (hfinds hvalue hreads)
  | unknown hkey hname _ ih =>
      obtain ⟨hvalue, hmembers⟩ := List.forall_mem_cons.mp hmembers
      refine List.forall_mem_cons.mpr ⟨.skipped hkey (fun field hfield => ?_) hvalue hvalue.quoted,
        ih hmembers⟩
      obtain ⟨slot, hslot, hfieldName, -⟩ := exists_mem_of_forall₂ hfits hfield
      exact hfieldName ▸ hname slot hslot

/-- Items at the first places look as the fields there should. -/
theorem Places.forall₂_take (hfits : layout.Fits slots) (hplaces : Places slots items r r')
    (hitems : ∀ item ∈ items, Value item.value) :
    List.Forall₂ (fun item field => field.2 item.value) items (layout.take items.length) := by
  induction hplaces generalizing layout with
  | nil => exact .nil
  | cons hreads _ ih =>
      obtain ⟨hvalue, hitems⟩ := List.forall_mem_cons.mp hitems
      cases hfits with
      | cons hfirst hfits => exact .cons (hfirst.2 hvalue hreads) (ih hfits hitems)

/-- A record is read from an object that fills it or from a list of its first fields. -/
theorem record_cases {wanted : String} {empty : σ} {form : Form} (hlawful : Lawful slots)
    (hvalue : Value value) (hreads : Reads (record wanted (slots.map Slot.field) empty) value
      (r, form)) :
    (∃ members gap, value = objectText members gap ∧ Blank gap ∧
      (∀ member ∈ members, Value member.value) ∧ Fills slots members empty r) ∨
    ∃ items gap, value = listText items gap ∧ Blank gap ∧ (∀ item ∈ items, Value item.value) ∧
      Places slots items empty r := by
  have hread := hreads [] ends_nil
  cases hvalue with
  | object hgap hmembers =>
      obtain ⟨-, -, hfills⟩ := (record_eq_ok_iff hlawful hmembers hgap).mp hread
      exact .inl ⟨_, _, rfl, hgap, hmembers, hfills⟩
  | list hgap hitems =>
      obtain ⟨-, -, hplaces⟩ := (record_list_eq_ok_iff hitems hgap).mp hread
      exact .inr ⟨_, _, rfl, hgap, hitems, hplaces⟩
  | unsigned hnumber =>
      obtain ⟨fault, hfault⟩ := record_unsigned (slots.map Slot.field) hnumber []
      rw [hfault] at hread
      contradiction
  | _ => cases hread

/-- A record is read from what has the layout of its fields. -/
theorem Layout.Fits.finds_record (hfits : layout.Fits slots) (hlawful : Lawful slots)
    (wanted : String) (empty : σ) :
    Finds (record wanted (slots.map Slot.field) empty) (RecordOf layout) := by
  intro value found hvalue hreads
  rcases record_cases hlawful hvalue hreads with ⟨members, gap, rfl, hgap, hmembers, hfills⟩ |
    ⟨items, gap, rfl, hgap, hitems, hplaces⟩
  · exact .named hgap (hfills.memberOf hfits hmembers)
  · exact .positional hgap (hplaces.forall₂_take hfits hitems)

end TimingReport.Json
