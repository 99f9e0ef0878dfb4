import TimingReport.Proofs.Json.Legible

/-!
# Where texts come from

Every text that is read is spelled by a string of the document. Readers of lists and records
make up no texts of their own: what they read holds the texts of its parts.
-/

namespace TimingReport.Json

variable {α β σ : Type} {reader : Reader α} {texts : α → List String} {s value : Symbols}

/-- A string within the symbols spells the text. -/
def SpelledIn (s : Symbols) (text : String) : Prop :=
  ∃ body, stringText body <:+: s ∧ Spells body text.toList

/-- What is spelled in a part of the symbols is spelled in all of them. -/
theorem SpelledIn.mono {text : String} (hspelled : SpelledIn value text) (hwithin : value <:+: s) :
    SpelledIn s text := by
  obtain ⟨body, hbody, hspells⟩ := hspelled
  exact ⟨body, hbody.trans hwithin, hspells⟩

/-! ## Parts of lists and objects -/

/-- Each part stands somewhere between the commas. -/
theorem infix_divided {first : Bool} {parts : List Symbols} {part : Symbols}
    (hpart : part ∈ parts) : part <:+: divided first parts := by
  induction parts generalizing first with
  | nil => contradiction
  | cons other parts ih =>
      have hdivided : other ++ divided false parts <:+: divided first (other :: parts) := by
        cases first with
        | true => exact List.infix_refl _
        | false => exact List.infix_cons (List.infix_refl _)
      refine List.IsInfix.trans ?_ hdivided
      rcases List.mem_cons.mp hpart with rfl | hpart
      · exact (List.prefix_append _ _).isInfix
      · exact (ih hpart).trans (List.suffix_append _ _).isInfix

theorem Item.value_infix_text (item : Item) : item.value <:+: item.text :=
  ⟨item.before, item.after, by simp [Item.text]⟩

theorem Member.value_infix_text (member : Member) : member.value <:+: member.text := by
  refine member.toItem.value_infix_text.trans ⟨member.lead ++ some '"' :: (member.key ++
    some '"' :: (member.gap ++ [some ':'])), [], ?_⟩
  simp [Member.text]

/-- The value of an item is a part of the list. -/
theorem infix_listText {items : List Item} {item : Item} (hitem : item ∈ items) (gap : Symbols) :
    item.value <:+: listText items gap := by
  have hdivided : item.text <:+: divided true (items.map Item.text) :=
    infix_divided (List.mem_map_of_mem hitem)
  refine item.value_infix_text.trans (hdivided.trans ⟨[some '['], gap ++ [some ']'], ?_⟩)
  simp [listText]

/-- The value of a member is a part of the object. -/
theorem infix_objectText {members : List Member} {member : Member} (hmember : member ∈ members)
    (gap : Symbols) : member.value <:+: objectText members gap := by
  have hdivided : member.text <:+: divided true (members.map Member.text) :=
    infix_divided (List.mem_map_of_mem hmember)
  refine member.value_infix_text.trans (hdivided.trans ⟨[some '\x7b'], gap ++ [some '\x7d'], ?_⟩)
  simp [objectText]

/-! ## Readers -/

/-- All texts of what is read are spelled in the value. -/
def Tells (reader : Reader α) (texts : α → List String) : Prop :=
  ∀ ⦃value : Symbols⦄ ⦃a : α⦄, Value value → Reads reader value a →
    ∀ text ∈ texts a, SpelledIn value text

/-- Of a reader without texts there is nothing to find. -/
theorem tells_nothing (reader : Reader α) : Tells reader fun _ => [] :=
  fun _ _ _ _ => List.forall_mem_nil _

/-- A text is spelled where it is read. -/
theorem tells_text : Tells text fun a => [a] := by
  intro value a hvalue hreads
  obtain ⟨body, rfl, hspells⟩ := exists_spells_of_reads hvalue hreads
  exact List.forall_mem_singleton.mpr ⟨body, List.infix_refl _, hspells⟩

/-- A change of what is read keeps its texts if it adds none. -/
theorem Tells.map {f : α → β} {texts : β → List String}
    (htells : Tells reader fun a => texts (f a)) (hlocal : Local reader) :
    Tells (fun s => (reader s).map fun (a, rest) => (f a, rest)) texts := by
  intro value b hvalue hreads
  obtain ⟨⟨a, left⟩, hread, hb⟩ := Outcome.map_eq_ok_iff.mp (hreads [] ends_nil)
  obtain ⟨rfl, -⟩ := Prod.mk.inj hb
  exact htells hvalue (hlocal.reads hvalue ends_nil hread)

/-- An absent value has no texts. -/
theorem Tells.optional (htells : Tells reader texts) :
    Tells (optional reader) fun a => a.toList.flatMap texts := by
  intro value a hvalue hreads
  by_cases hnull : value = nullText
  · subst hnull
    obtain rfl := hreads.unique (reads_optional_null reader)
    exact List.forall_mem_nil _
  · obtain ⟨b, hb, rfl⟩ := (reads_optional_iff hvalue hnull).mp hreads
    simpa using htells hvalue hb

/-- The texts of a list are those of its items. -/
theorem Tells.list (htells : Tells reader texts) (hlocal : Local reader) :
    Tells (list reader) fun found => found.flatMap texts := by
  intro value found hvalue hreads text htext
  obtain ⟨items, gap, rfl, -, hitems, hfound⟩ := exists_items_of_reads hlocal hvalue hreads
  obtain ⟨a, ha, htext⟩ := List.mem_flatMap.mp htext
  obtain ⟨item, hitem, hreads⟩ := exists_mem_of_forall₂ hfound.flip ha
  exact (htells (hitems item hitem) hreads text htext).mono (infix_listText hitem gap)

/-! ## Records -/

variable {slot : Slot σ} {slots : List (Slot σ)} {members : List Member} {items : List Item}
  {texts : σ → List String} {r r' : σ}

/-- Setting the slot adds no texts but those that are spelled in the value that is read. -/
def Slot.Tells (slot : Slot σ) (texts : σ → List String) : Prop :=
  ∀ ⦃r : σ⦄ ⦃value : Symbols⦄ ⦃a : slot.Content⦄, Value value → Reads slot.reader value a →
    ∀ text ∈ texts (slot.set r a), text ∈ texts r ∨ SpelledIn value text

/-- A slot only adds the texts of its own value to a record. -/
theorem Slot.tells {parts : slot.Content → List String} (htells : Json.Tells slot.reader parts)
    (hset : ∀ r a, texts (slot.set r a) ⊆ texts r ++ parts a) : slot.Tells texts := by
  intro r value a hvalue hreads text htext
  rcases List.mem_append.mp (hset r a htext) with htext | htext
  · exact .inl htext
  · exact .inr (htells hvalue hreads text htext)

/-- A text of a record that members fill was there before or is spelled in a member. -/
theorem Fills.spelledIn (htells : ∀ slot ∈ slots, slot.Tells texts)
    (hfills : Fills slots members r r') (hmembers : ∀ member ∈ members, Value member.value)
    {text : String} (htext : text ∈ texts r') :
    text ∈ texts r ∨ ∃ member ∈ members, SpelledIn member.value text := by
  induction hfills with
  | nil => exact .inl htext
  | known hslot _ _ hreads _ ih =>
      obtain ⟨hvalue, hmembers⟩ := List.forall_mem_cons.mp hmembers
      rcases ih hmembers htext with htext | ⟨member, hmember, hspelled⟩
      · rcases htells _ hslot hvalue hreads text htext with htext | hspelled
        · exact .inl htext
        · exact .inr ⟨_, List.mem_cons_self, hspelled⟩
      · exact .inr ⟨member, List.mem_cons_of_mem _ hmember, hspelled⟩
  | unknown _ _ _ ih =>
      rcases ih (List.forall_mem_cons.mp hmembers).2 htext with htext | ⟨member, hmember, hspelled⟩
      · exact .inl htext
      · exact .inr ⟨member, List.mem_cons_of_mem _ hmember, hspelled⟩

/-- A text of a record that items fill was there before or is spelled in an item. -/
theorem Places.spelledIn (htells : ∀ slot ∈ slots, slot.Tells texts)
    (hplaces : Places slots items r r') (hitems : ∀ item ∈ items, Value item.value)
    {text : String} (htext : text ∈ texts r') :
    text ∈ texts r ∨ ∃ item ∈ items, SpelledIn item.value text := by
  induction hplaces with
  | nil => exact .inl htext
  | cons hreads _ ih =>
      obtain ⟨hfirst, hothers⟩ := List.forall_mem_cons.mp htells
      obtain ⟨hvalue, hitems⟩ := List.forall_mem_cons.mp hitems
      rcases ih hothers hitems htext with htext | ⟨item, hitem, hspelled⟩
      · rcases hfirst hvalue hreads text htext with htext | hspelled
        · exact .inl htext
        · exact .inr ⟨_, List.mem_cons_self, hspelled⟩
      · exact .inr ⟨item, List.mem_cons_of_mem _ hitem, hspelled⟩

/-- A record that is empty of texts gets them from its members or items. -/
theorem tells_record (hlawful : Lawful slots) (htells : ∀ slot ∈ slots, slot.Tells texts)
    {empty : σ} (hempty : texts empty = []) (wanted : String) :
    Tells (record wanted (slots.map Slot.field) empty) fun found => texts found.1 := by
  have hnone : ∀ text, text ∉ texts empty := by simp [hempty]
  intro value found hvalue hreads text htext
  rcases record_cases hlawful hvalue hreads with ⟨members, gap, rfl, -, hmembers, hfills⟩ |
    ⟨items, gap, rfl, -, hitems, hplaces⟩
  · rcases hfills.spelledIn htells hmembers htext with htext | ⟨member, hmember, hspelled⟩
    · exact absurd htext (hnone text)
    · exact hspelled.mono (infix_objectText hmember gap)
  · rcases hplaces.spelledIn htells hitems htext with htext | ⟨item, hitem, hspelled⟩
    · exact absurd htext (hnone text)
    · exact hspelled.mono (infix_listText hitem gap)

end TimingReport.Json
