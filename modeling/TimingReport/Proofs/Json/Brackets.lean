import TimingReport.Json.Skip
import TimingReport.Proofs.Json.Grammar

/-!
# What remains of a bracket

Lists and objects are read part by part. What follows a part is white space, and then either a
comma with another part or the symbol that closes the bracket. So what was read up to that symbol
is a value of the grammar.
-/

namespace TimingReport.Json.Skip

variable {frame : Frame} {first : Bool} {s rest : Symbols}

/-- The symbol that opens a bracket. -/
def Frame.opener : Frame → Option Char
  | list => some '['
  | object => some '\x7b'

/-- The text of a part of a list or an object. -/
def Frame.IsText (frame : Frame) (text : Symbols) : Prop :=
  match frame with
  | .list => ∃ item : Item, Value item.value ∧ item.text = text
  | .object => ∃ member : Member, Value member.value ∧ member.text = text

/-- A part of a list or an object up to the white space behind it. -/
def Frame.IsFront (frame : Frame) (front : Symbols) : Prop :=
  ∀ after, Blank after → frame.IsText (front ++ after)

theorem isFront_item {before value : Symbols} (hbefore : Blank before) (hvalue : Value value) :
    Frame.list.IsFront (before ++ value) := by
  intro after hafter
  exact ⟨⟨before, value, after, hbefore, hafter⟩, hvalue, by simp [Item.text]⟩

theorem isFront_member {lead key gap before value : Symbols} (hlead : Blank lead)
    (hkey : Body key) (hgap : Blank gap) (hbefore : Blank before) (hvalue : Value value) :
    Frame.object.IsFront
      (lead ++ some '"' :: (key ++ some '"' :: (gap ++ some ':' :: (before ++ value)))) := by
  intro after hafter
  let member : Member :=
    ⟨⟨before, value, after, hbefore, hafter⟩, lead, key, gap, hlead, hkey, hgap⟩
  exact ⟨member, hvalue, by simp [member, Member.text, Item.text]⟩

/-- What remains of a bracket where its first part is due, or where one has been read. -/
inductive Frame.Remains (frame : Frame) : Bool → Symbols → Symbols → Prop
  | closed {first : Bool} {gap rest : Symbols} (hgap : Blank gap) :
      frame.Remains first (gap ++ frame.closer :: rest) rest
  | first {front tail rest : Symbols} (hfront : frame.IsFront front)
      (hrest : frame.Remains false tail rest) : frame.Remains true (front ++ tail) rest
  | next {gap front tail rest : Symbols} (hgap : Blank gap) (hfront : frame.IsFront front)
      (hrest : frame.Remains false tail rest) :
      frame.Remains false (gap ++ some ',' :: (front ++ tail)) rest

/-- Where the next part of a bracket begins: behind white space if it is the first one, and else
behind a comma, too. -/
inductive Continues : Bool → Symbols → Symbols → Prop
  | first {lead s : Symbols} (hlead : Blank lead) : Continues true (lead ++ s) s
  | next {gap lead s : Symbols} (hgap : Blank gap) (hlead : Blank lead) :
      Continues false (gap ++ some ',' :: (lead ++ s)) s

theorem Frame.Remains.of_continues {front tail : Symbols}
    (hcontinues : Continues first s (front ++ tail))
    (hfront : ∀ lead, Blank lead → frame.IsFront (lead ++ front))
    (hrest : frame.Remains false tail rest) : frame.Remains first s rest := by
  cases hcontinues with
  | @first lead _ hlead =>
      rw [← List.append_assoc]
      exact .first (hfront lead hlead) hrest
  | @next gap lead _ hgap hlead =>
      rw [← List.append_assoc]
      exact .next hgap (hfront lead hlead) hrest

/-- Behind a part there are texts of more parts, each behind a comma. -/
theorem Frame.Remains.exists_texts (hremains : frame.Remains first s rest) :
    ∃ gap texts last, s = gap ++ (divided first texts ++ (last ++ frame.closer :: rest)) ∧
      Blank gap ∧ Blank last ∧ (first → gap = []) ∧ ∀ text ∈ texts, frame.IsText text := by
  induction hremains with
  | @closed first gap rest hgap =>
      exact ⟨[], [], gap, by simp [divided], blank_nil, hgap, fun _ => rfl, List.forall_mem_nil _⟩
  | @first front tail rest hfront _ ih =>
      obtain ⟨after, texts, last, rfl, hafter, hlast, -, htexts⟩ := ih
      exact ⟨[], (front ++ after) :: texts, last, by simp [divided], blank_nil, hlast, fun _ => rfl,
        List.forall_mem_cons.mpr ⟨hfront after hafter, htexts⟩⟩
  | @next gap front tail rest hgap hfront _ ih =>
      obtain ⟨after, texts, last, rfl, hafter, hlast, -, htexts⟩ := ih
      exact ⟨gap, (front ++ after) :: texts, last, by simp [divided], hgap, hlast, nofun,
        List.forall_mem_cons.mpr ⟨hfront after hafter, htexts⟩⟩

/-- A list whose elements are all values of a map is the map of a list. -/
theorem exists_map_eq {α β : Type} {f : β → α} {p : β → Prop} {l : List α}
    (hall : ∀ a ∈ l, ∃ b, p b ∧ f b = a) : ∃ bs : List β, (∀ b ∈ bs, p b) ∧ bs.map f = l := by
  induction l with
  | nil => exact ⟨[], List.forall_mem_nil _, rfl⟩
  | cons a l ih =>
      obtain ⟨⟨b, hb, hfirst⟩, hrest⟩ := List.forall_mem_cons.mp hall
      obtain ⟨bs, hbs, hmap⟩ := ih hrest
      exact ⟨b :: bs, List.forall_mem_cons.mpr ⟨hb, hbs⟩, by rw [List.map_cons, hfirst, hmap]⟩

theorem value_of_texts {texts : List Symbols} {gap : Symbols}
    (htexts : ∀ text ∈ texts, frame.IsText text) (hgap : Blank gap) :
    Value (frame.opener :: (divided true texts ++ (gap ++ [frame.closer]))) := by
  cases frame with
  | list =>
      obtain ⟨items, hitems, rfl⟩ := exists_map_eq htexts
      exact .list hgap hitems
  | object =>
      obtain ⟨members, hmembers, rfl⟩ := exists_map_eq htexts
      exact .object hgap hmembers

/-- A bracket with what remains of it is a value. -/
theorem Frame.Remains.exists_value (hremains : frame.Remains true s rest) :
    ∃ value, frame.opener :: s = value ++ rest ∧ Value value := by
  obtain ⟨gap, texts, last, rfl, -, hlast, hnone, htexts⟩ := hremains.exists_texts
  obtain rfl := hnone rfl
  exact ⟨_, by simp, value_of_texts htexts hlast⟩

end TimingReport.Json.Skip
