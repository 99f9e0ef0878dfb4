import TimingReport.Proofs.Json.Records

/-!
# What lists of fields are read as

A record may also be written as the list of its fields: every item puts its value into the slot
at its own place. The last slots may be left out, and no items are left over.
-/

namespace TimingReport.Json

variable {σ : Type}

/-- Items fill a record `r` up to `r'`, each the slot at its place. -/
inductive Places : List (Slot σ) → List Item → σ → σ → Prop
  | nil {slots : List (Slot σ)} {r : σ} : Places slots [] r r
  | cons {slot : Slot σ} {slots : List (Slot σ)} {item : Item} {items : List Item} {r r' : σ}
      {a : slot.Content} (hread : Reads slot.reader item.value a)
      (hrest : Places slots items (slot.set r a) r') : Places (slot :: slots) (item :: items) r r'

variable {slots : List (Slot σ)} {items : List Item} {gap rest left : Symbols} {first : Bool}
  {r r' : σ}

theorem endList_blank (hgap : Blank gap) (s : Symbols) : endList (gap ++ s) = endList s := by
  simp only [endList, skipBlank_append hgap]

/-- A list that goes on where it should end is refused. -/
theorem endList_item {item : Item} (hvalue : Value item.value) (texts : List Symbols)
    (tail : Symbols) :
    endList (divided first (item.text :: texts) ++ tail) = .error .trailingCharacters := by
  obtain ⟨s, more, hstart, hs⟩ := hvalue.exists_start
  have hclose : s ≠ some ']' := by rintro rfl; exact hs (by decide)
  have hseparator : s ≠ some ',' := by rintro rfl; exact hs (by decide)
  have hblank := skipBlank_cons (not_isBlank_of_not_isEnd hs)
  have hcomma : ¬isBlank (some ',') := by decide
  cases first <;>
    simp [divided, Item.text, endList, skipBlank_append item.blank_before, hstart, hblank,
      skipBlank_cons hcomma, hclose]

theorem readPositions_blank (hgap : Blank gap) (fields : List (Field σ)) (first : Bool) (r : σ)
    (s : Symbols) : readPositions fields first r (gap ++ s) = readPositions fields first r s := by
  cases fields with
  | nil => rw [readPositions, readPositions, endList_blank hgap]
  | cons field fields => rw [readPositions, readPositions, nextElement_blank hgap]

/-- A list that ends leaves the slots that are still to come as they are. -/
theorem readPositions_nil_eq_ok_iff (hgap : Blank gap) :
    readPositions (slots.map Slot.field) first r (gap ++ some ']' :: rest) = .ok (r', left) ↔
      left = rest ∧ Places slots [] r r' := by
  have hclosed : readPositions (slots.map Slot.field) first r (gap ++ some ']' :: rest) =
      .ok (r, rest) := by
    rw [readPositions_blank hgap]
    cases slots <;> rfl
  rw [hclosed]
  constructor
  · intro hread
    obtain ⟨rfl, rfl⟩ := Prod.mk.inj (Except.ok.inj hread)
    exact ⟨rfl, .nil⟩
  · rintro ⟨rfl, ⟨⟩⟩
    rfl

theorem readPositions_eq_ok_iff (hitems : ∀ item ∈ items, Value item.value) (hgap : Blank gap) :
    readPositions (slots.map Slot.field) first r
        (divided first (items.map Item.text) ++ (gap ++ some ']' :: rest)) = .ok (r', left) ↔
      left = rest ∧ Places slots items r r' := by
  have hclose : isEnd (some ']') := by decide
  induction items generalizing slots first r with
  | nil => exact readPositions_nil_eq_ok_iff hgap
  | cons item items ih =>
      obtain ⟨hvalue, hitems⟩ := List.forall_mem_cons.mp hitems
      have hends := item.ends_after hgap hclose (items.map Item.text) rest
      cases slots with
      | nil =>
          rw [List.map_nil, List.map_cons, readPositions, endList_item hvalue]
          constructor
          · intro hread
            contradiction
          · rintro ⟨_, ⟨⟩⟩
      | cons slot slots =>
          rw [List.map_cons, List.map_cons, readPositions, nextElement_item hvalue]
          simp only [Slot.field]
          cases hread : slot.reader (item.value ++ (item.after ++
              (divided false (items.map Item.text) ++ (gap ++ some ']' :: rest)))) with
          | error fault =>
              constructor
              · intro hfault
                contradiction
              · rintro ⟨_, hplaces⟩
                cases hplaces with
                | cons hreads _ =>
                    rw [hreads _ hends] at hread
                    contradiction
          | ok found =>
              obtain ⟨a, s⟩ := found
              obtain ⟨rfl, hreads⟩ := (slot.isLocal.eq_ok_iff hvalue hends).mp hread
              simp only [Except.map, readPositions_blank item.blank_after]
              refine (ih hitems).trans (and_congr_right fun _ => ⟨.cons hreads, ?_⟩)
              rintro (_ | ⟨hother, hrest⟩)
              rwa [hreads.unique hother]

/-! ## Records in both forms -/

variable {wanted : String} {empty : σ} {form : Form}

theorem record_list_eq_ok_iff (hitems : ∀ item ∈ items, Value item.value) (hgap : Blank gap) :
    record wanted (slots.map Slot.field) empty (listText items gap ++ rest) =
        .ok ((r, form), left) ↔
      left = rest ∧ form = .positional ∧ Places slots items empty r := by
  have hopen : ¬isBlank (some '[') := by decide
  have hrecord : record wanted (slots.map Slot.field) empty (listText items gap ++ rest) =
      (readPositions (slots.map Slot.field) true empty
        (divided true (items.map Item.text) ++ (gap ++ some ']' :: rest))).map
        fun read => ((read.1, .positional), read.2) := by
    simp [listText, record, skipBlank_cons hopen]
  rw [hrecord, Outcome.map_eq_ok_iff]
  constructor
  · rintro ⟨⟨r', s⟩, hread, hr⟩
    obtain ⟨rfl, hplaces⟩ := (readPositions_eq_ok_iff hitems hgap).mp hread
    obtain ⟨hpair, hleft⟩ := Prod.mk.inj hr
    obtain ⟨rfl, rfl⟩ := Prod.mk.inj hpair
    exact ⟨hleft.symm, rfl, hplaces⟩
  · rintro ⟨rfl, rfl, hplaces⟩
    exact ⟨(r, left), (readPositions_eq_ok_iff hitems hgap).mpr ⟨rfl, hplaces⟩, rfl⟩

theorem record_unsigned (fields : List (Field σ)) {value : Symbols} (hnumber : Unsigned value)
    (rest : Symbols) : ∃ fault, record wanted fields empty (value ++ rest) = .error fault := by
  rw [record, (Value.unsigned hnumber).skipBlank_append]
  split
  next heq => exact absurd heq (hnumber.append_ne (by decide) _ _)
  next heq => exact absurd heq (hnumber.append_ne (by decide) _ _)
  next => exact ⟨_, rfl⟩
  next => exact ⟨_, rfl⟩

/-- A record is read as the same one whatever is around it, in both of its forms. -/
theorem local_record (hlawful : Lawful slots) (wanted : String) (empty : σ) :
    Local (record wanted (slots.map Slot.field) empty) where
  skipBlank_eq s := by simp only [record, skipBlank_skipBlank]
  reads {value rest left found} hvalue hrest hread := by
    obtain ⟨r, form⟩ := found
    cases hvalue with
    | object hgap hmembers =>
        obtain ⟨_, hform, hfills⟩ := (record_eq_ok_iff hlawful hmembers hgap).mp hread
        exact fun other _ => (record_eq_ok_iff hlawful hmembers hgap).mpr ⟨rfl, hform, hfills⟩
    | list hgap hitems =>
        obtain ⟨_, hform, hplaces⟩ := (record_list_eq_ok_iff hitems hgap).mp hread
        exact fun other _ => (record_list_eq_ok_iff hitems hgap).mpr ⟨rfl, hform, hplaces⟩
    | unsigned hnumber =>
        obtain ⟨fault, hfault⟩ := record_unsigned (slots.map Slot.field) hnumber _
        rw [hfault] at hread
        contradiction
    | _ => cases hread

end TimingReport.Json
