import TimingReport.Decimal.Fixed
import TimingReport.Proofs.Json.FieldTexts

/-!
# Writing values

Texts, natural numbers, lists and objects as JSON without white space. What is written
belongs to the grammar, and it is read as what was written.
-/

namespace TimingReport.Json

namespace Write

/-- The character inside a string. Quotes, backslashes and control characters are escaped. -/
def escapedChar : Char → List Char
  | '"' => ['\\', '"']
  | '\\' => ['\\', '\\']
  | '\x08' => ['\\', 'b']
  | '\x0c' => ['\\', 'f']
  | '\n' => ['\\', 'n']
  | '\r' => ['\\', 'r']
  | '\t' => ['\\', 't']
  | c =>
      if c.toNat < 0x20 then
        ['\\', 'u', '0', '0', Nat.digitChar (c.toNat / 16), Nat.digitChar (c.toNat % 16)]
      else [c]

def escaped (text : List Char) : List Char := text.flatMap escapedChar

def string (text : String) : List Char := '"' :: (escaped text.toList ++ ['"'])

def natural (n : Nat) : List Char := Decimal.digits n

def list (values : List (List Char)) : List Char :=
  '[' :: (List.intercalate [','] values ++ [']'])

/-- A member by its key and its written value. -/
def member (m : String × List Char) : List Char := string m.1 ++ ':' :: m.2

def object (members : List (String × List Char)) : List Char :=
  '\x7b' :: (List.intercalate [','] (members.map member) ++ ['\x7d'])

/-- The member of a field that may be absent. -/
def given {α : Type} (name : String) (write : α → List Char) (value : Option α) :
    List (String × List Char) :=
  value.toList.map fun a => (name, write a)

end Write

open Write

/-- A written value other than `null`, and what it is read as. -/
structure Written {α : Type} (reader : Reader α) (text : List Char) (a : α) : Prop where
  value : Value (text.map some)
  ne_null : text.map some ≠ nullText
  reads : Reads reader (text.map some) a

/-- A written value may be read by another reader, as what that one makes of it. -/
theorem Written.of_reads {α β : Type} {reader : Reader α} {other : Reader β} {text : List Char}
    {a : α} {b : β} (hwritten : Written reader text a) (hreads : Reads other (text.map some) b) :
    Written other text b :=
  ⟨hwritten.value, hwritten.ne_null, hreads⟩

/-- A written value is read as a value that is present. -/
theorem Written.optional {α : Type} {reader : Reader α} {text : List Char} {a : α}
    (hwritten : Written reader text a) :
    Written (Json.optional reader) text (some a) :=
  hwritten.of_reads <|
    (reads_optional_iff hwritten.value hwritten.ne_null).mpr ⟨a, hwritten.reads, rfl⟩

/-! ## Strings -/

/-- The escape of a control character has its code in the last two digits. -/
theorem codeUnit?_control {n : Nat} (hn : n < 0x20) :
    codeUnit? (some '0') (some '0') (some (Nat.digitChar (n / 16)))
      (some (Nat.digitChar (n % 16))) = some n := by
  have hall : ∀ n < 0x20, codeUnit? (some '0') (some '0') (some (Nat.digitChar (n / 16)))
      (some (Nat.digitChar (n % 16))) = some n := by decide
  exact hall n hn

/-- An escaped character spells itself. -/
theorem Spells.escapedChar_append (c : Char) {body : Symbols} {text : List Char}
    (hspells : Spells body text) : Spells ((escapedChar c).map some ++ body) (c :: text) := by
  unfold escapedChar
  split
  case h_8 hquote hescape _ _ _ _ _ =>
    split
    next hcontrol =>
      have hlead : ¬isLeading c.toNat := by simp [isLeading]; omega
      have htrail : ¬isTrailing c.toNat := by simp [isTrailing]; omega
      have hunit := Spells.unit (codeUnit?_control hcontrol) hlead htrail hspells
      rwa [Char.ofNat_toNat] at hunit
    next hcontrol => exact .plain hquote hescape (by simpa [isControl] using hcontrol) hspells
  all_goals exact .short rfl hspells

/-- An escaped text spells itself. -/
theorem spells_escaped (text : List Char) : Spells ((escaped text).map some) text := by
  induction text with
  | nil => exact .nil
  | cons c text ih =>
      rw [escaped, List.flatMap_cons, List.map_append]
      exact ih.escapedChar_append c

theorem map_some_string (text : String) :
    (Write.string text).map some = stringText ((escaped text.toList).map some) := by
  simp [Write.string, stringText]

/-- A text is read back from how it is written. -/
theorem written_string (a : String) : Written text (Write.string a) a where
  value := by
    rw [map_some_string]
    exact .string (spells_escaped _).body
  ne_null := by simp [Write.string, nullText]
  reads := by
    rw [map_some_string]
    exact (reads_text_iff (spells_escaped _).body).mpr (spells_escaped _)

/-! ## Natural numbers -/

theorem unsigned_natural (n : Nat) : Unsigned ((Write.natural n).map some) :=
  (whole_digits n).unsigned

/-- A natural number that fits is read as a count. -/
theorem written_number (wanted : String) {n : Nat} (hn : n ≤ maxCount) :
    Written (number wanted) (Write.natural n) (.integer n) where
  value := .unsigned (unsigned_natural n)
  ne_null hnull := by
    obtain ⟨d, rest, heq, hdigit⟩ := (unsigned_natural n).exists_digit
    obtain ⟨rfl, _⟩ := List.cons.inj (hnull.symm.trans heq)
    exact absurd hdigit (by decide)
  reads rest hrest := by
    rw [number_unsigned wanted (unsigned_natural n)]
    exact readNumber_digits hn hrest

/-- As a real number a written count is rounded. -/
theorem written_real {n : Nat} (hn : n ≤ maxCount) :
    Written real (Write.natural n) (.ofNat n) := by
  have hnumber := written_number "f64" hn
  refine hnumber.of_reads ?_
  rw [real_eq]
  exact hnumber.reads.map Number.toReal

/-- A count is read back if it has no more bits than are allowed. -/
theorem written_natural {bits n : Nat} (hn : n ≤ maxCount) (hbits : n < Nat.pow 2 bits) :
    Written (Json.natural bits) (Write.natural n) n := by
  have hconvert : (Number.integer n).toNatural bits = .ok n := by
    rw [Number.toNatural, Int.toNat_natCast, if_pos ⟨Int.natCast_nonneg n, hbits⟩]
  have hnumber := written_number ("u" ++ toString bits) hn
  refine hnumber.of_reads ?_
  rw [natural_eq]
  exact hnumber.reads.convert hconvert

/-! ## Lists and objects -/

/-- A value without white space around it. -/
def Item.bare (value : Symbols) : Item := ⟨[], value, [], blank_nil, blank_nil⟩

/-- A member without white space in it. -/
def Member.bare (m : String × List Char) : Member where
  toItem := .bare (m.2.map some)
  lead := []
  key := (escaped m.1.toList).map some
  gap := []
  blank_lead := blank_nil
  body_key := (spells_escaped _).body
  blank_gap := blank_nil

/-- A written key spells its name and nothing else. -/
theorem spells_bare_iff (m : String × List Char) (name : String) :
    Spells (Member.bare m).key name.toList ↔ m.1 = name :=
  ⟨(spells_escaped m.1.toList).unique, fun hname => hname ▸ spells_escaped m.1.toList⟩

theorem map_some_intercalate (texts : List (List Char)) :
    (List.intercalate [','] texts).map some = divided true (texts.map (List.map some)) := by
  induction texts with
  | nil => rfl
  | cons text texts ih =>
      cases texts with
      | nil => simp [divided]
      | cons next texts =>
          rw [List.intercalate_cons_cons, List.map_append, List.map_append, ih]
          simp [divided]

/-- A written list is a list of values without white space. -/
theorem map_some_list (values : List (List Char)) :
    (Write.list values).map some =
      listText (values.map fun value => .bare (value.map some)) [] := by
  have htexts : values.map (List.map some) =
      (values.map fun value => Item.bare (value.map some)).map Item.text := by
    simp [Item.text, Item.bare, Function.comp_def]
  simp [Write.list, listText, map_some_intercalate, htexts]

/-- A written object is an object of members without white space. -/
theorem map_some_object (members : List (String × List Char)) :
    (Write.object members).map some = objectText (members.map .bare) [] := by
  have htexts : (members.map member).map (List.map some) =
      (members.map Member.bare).map Member.text := by
    simp [Member.text, Member.bare, Item.text, Item.bare, member, map_some_string, stringText,
      Function.comp_def]
  simp [Write.object, objectText, map_some_intercalate, htexts]

/-- A written list is read back if its values are. -/
theorem written_list {α β : Type} {reader : Reader α} (hlocal : Local reader)
    {write : β → List Char} {found : β → α} (values : List β)
    (hwritten : ∀ b ∈ values, Written reader (write b) (found b)) :
    Written (Json.list reader) (Write.list (values.map write)) (values.map found) := by
  have hitems : ∀ item ∈ (values.map write).map fun value => Item.bare (value.map some),
      Value item.value := by
    simpa [Item.bare] using fun b hb => (hwritten b hb).value
  constructor
  case value =>
    rw [map_some_list]
    exact .list blank_nil hitems
  case ne_null => simp [Write.list, nullText]
  case reads =>
    rw [map_some_list, reads_list_iff hlocal hitems blank_nil]
    induction values with
    | nil => exact .nil
    | cons b values ih =>
        obtain ⟨hb, hvalues⟩ := List.forall_mem_cons.mp hwritten
        exact .cons hb.reads (ih hvalues (List.forall_mem_cons.mp hitems).2)

/-! ## Texts of written members -/

/-- The texts of written members. -/
def Write.texts (members : List (String × List Char)) : Texts := fun name =>
  (members.lookup name).map (List.map some)

/-- Among members with names of their own, a name finds its own value. -/
theorem lookup_eq_some_iff {members : List (String × List Char)}
    (hnodup : (members.map Prod.fst).Nodup) {name : String} {text : List Char} :
    members.lookup name = some text ↔ (name, text) ∈ members := by
  induction members with
  | nil => simp
  | cons m members ih =>
      obtain ⟨key, value⟩ := m
      obtain ⟨hfresh, hnodup⟩ := List.nodup_cons.mp hnodup
      by_cases hkey : name = key
      · subst hkey
        have hnot : (name, text) ∉ members := fun hmem =>
          hfresh (List.mem_map.mpr ⟨_, hmem, rfl⟩)
        simp [hnot, eq_comm]
      · simp [List.lookup_cons, beq_eq_false_iff_ne.mpr hkey, hkey, ih hnodup]

/-- A written object holds the texts of its members. -/
theorem holds_object (names : List String) {members : List (String × List Char)}
    (hnodup : (members.map Prod.fst).Nodup) (hvalues : ∀ m ∈ members, Value (m.2.map some)) :
    Holds names (Write.texts members) ((Write.object members).map some) := by
  rw [map_some_object]
  refine .named (List.forall_mem_map.mpr hvalues) blank_nil ⟨?keys, ?distinct, ?texts⟩
  case keys => exact List.forall_mem_map.mpr fun m _ => ⟨m.1, (spells_bare_iff m m.1).mpr rfl⟩
  case distinct =>
    refine List.pairwise_map.mpr ((List.pairwise_map.mp hnodup).imp fun hne name _ hsame => hne ?_)
    exact ((spells_bare_iff _ name).mp hsame.1).trans ((spells_bare_iff _ name).mp hsame.2).symm
  case texts =>
    intro name _ text
    constructor
    · intro htext
      obtain ⟨value, hlookup, rfl⟩ := Option.map_eq_some_iff.mp htext
      have hmem := (lookup_eq_some_iff hnodup).mp hlookup
      exact ⟨.bare (name, value), List.mem_map_of_mem hmem, (spells_bare_iff _ _).mpr rfl, rfl⟩
    · rintro ⟨member, hmember, hkey, rfl⟩
      obtain ⟨⟨key, value⟩, hmem, rfl⟩ := List.mem_map.mp hmember
      obtain rfl := (spells_bare_iff _ _).mp hkey
      exact Option.map_eq_some_iff.mpr ⟨value, (lookup_eq_some_iff hnodup).mpr hmem, rfl⟩

variable {σ α β : Type} {slots : List (Slot σ)} {r r' : σ}

/-- Written members with some of the given names, and what they fill. -/
structure WrittenMembers (slots : List (Slot σ)) (names : List String)
    (members : List (String × List Char)) (r r' : σ) : Prop where
  named : ∀ m ∈ members, m.1 ∈ names
  values : ∀ m ∈ members, Value (m.2.map some)
  fills : Fills slots (members.map .bare) r r'

theorem writtenMembers_nil : WrittenMembers slots [] [] r r where
  named _ hm := absurd hm List.not_mem_nil
  values _ hm := absurd hm List.not_mem_nil
  fills := .nil

variable {names : List String} {members : List (String × List Char)}

/-- A member with a name that no later member has sets its field. -/
theorem WrittenMembers.cons {slot : Slot σ} (hslot : slot ∈ slots) (hfresh : slot.name ∉ names)
    {text : List Char} {a : slot.Content} (hwritten : Written slot.reader text a)
    (hmembers : WrittenMembers slots names members (slot.set r a) r') :
    WrittenMembers slots (slot.name :: names) ((slot.name, text) :: members) r r' where
  named := by
    refine List.forall_mem_cons.mpr ⟨List.mem_cons_self, fun m hm => ?_⟩
    exact List.mem_cons_of_mem _ (hmembers.named m hm)
  values := List.forall_mem_cons.mpr ⟨hwritten.value, hmembers.values⟩
  fills := by
    refine .known hslot ((spells_bare_iff _ _).mpr rfl) (fun other hother hsame => ?_)
      hwritten.reads hmembers.fills
    obtain ⟨m, hm, rfl⟩ := List.mem_map.mp hother
    exact hfresh ((spells_bare_iff m _).mp hsame ▸ hmembers.named m hm)

/-- A member for a field that may be absent sets it, if it is there. -/
theorem WrittenMembers.given {name : String} {reader : Reader α} {hlocal : Local reader}
    {set : σ → Option α → σ} (hslot : Slot.ofOptional name hlocal set ∈ slots)
    (hfresh : name ∉ names) {write : β → List Char} {found : β → α}
    (hwritten : ∀ b, Written reader (write b) (found b)) {value : Option β}
    (hnone : set r none = r)
    (hmembers : WrittenMembers slots names members (set r (value.map found)) r') :
    WrittenMembers slots (name :: names) (Write.given name write value ++ members) r r' := by
  cases value with
  | none =>
      rw [Option.map_none, hnone] at hmembers
      exact ⟨fun m hm => List.mem_cons_of_mem _ (hmembers.named m hm), hmembers.values,
        hmembers.fills⟩
  | some b => exact hmembers.cons hslot hfresh (hwritten b).optional

theorem WrittenMembers.value_bare (hmembers : WrittenMembers slots names members r r') :
    ∀ member ∈ members.map Member.bare, Value member.value := by
  intro member hmember
  obtain ⟨m, hm, rfl⟩ := List.mem_map.mp hmember
  exact hmembers.values m hm

/-- A written object is read as what its members fill. -/
theorem WrittenMembers.object (hmembers : WrittenMembers slots names members r r')
    {reader : Reader σ} (hreads : Fills slots (members.map Member.bare) r r' →
      Reads reader (objectText (members.map Member.bare) []) r') :
    Written reader (Write.object members) r' where
  value := by
    rw [map_some_object]
    exact .object blank_nil hmembers.value_bare
  ne_null := by simp [Write.object, nullText]
  reads := by
    rw [map_some_object]
    exact hreads hmembers.fills

end TimingReport.Json
