import TimingReport.Markup

/-!
# Reading a page by its marks

A reader of a page knows nothing of its tokens. It looks for a mark, such as a tag, and
takes what stands between this mark and another one. The lemmas say what such a reader
finds in a text that is put together from tags and from parts without angle brackets.
-/

namespace TimingReport.Markup

/-! ## Readers -/

/-- The text before the first place where a mark stands, and the text behind the mark. -/
def cut (mark : List Char) : List Char → Option (List Char × List Char)
  | [] => none
  | c :: rest =>
      if mark.isPrefixOf (c :: rest) then some ([], (c :: rest).drop mark.length)
      else (cut mark rest).map fun (before, after) => (c :: before, after)

/-- What is read at each place where a mark stands, the mark included. -/
def readEach {β : Type} (mark : List Char) (read : List Char → Option β) : List Char → List β
  | [] => []
  | c :: rest =>
      if mark.isPrefixOf (c :: rest) then (read (c :: rest)).toList ++ readEach mark read rest
      else readEach mark read rest

/-- The text from the start to the next closing angle bracket. -/
def tagText (text : List Char) : Option (List Char) :=
  (cut ['>'] text).map fun (before, _) => before ++ ['>']

/-- Every part of a page from an opening angle bracket to the next closing one. -/
def tags (page : List Char) : List (List Char) := readEach ['<'] tagText page

/-! ## Texts without angle brackets -/

/-- The text neither begins nor ends a tag. -/
def Bare (text : List Char) : Prop := ∀ c ∈ text, c ≠ '<' ∧ c ≠ '>'

instance (text : List Char) : Decidable (Bare text) :=
  List.decidableBAll (fun c : Char => c ≠ '<' ∧ c ≠ '>') text

@[simp] theorem bare_nil : Bare [] := fun _ hc => absurd hc List.not_mem_nil

@[simp] theorem bare_cons {c : Char} {rest : List Char} :
    Bare (c :: rest) ↔ (c ≠ '<' ∧ c ≠ '>') ∧ Bare rest := List.forall_mem_cons

@[simp] theorem bare_append {first second : List Char} :
    Bare (first ++ second) ↔ Bare first ∧ Bare second := List.forall_mem_append

theorem Bare.flatMap {α : Type} {members : List α} {text : α → List Char}
    (htexts : ∀ a ∈ members, Bare (text a)) : Bare (members.flatMap text) := by
  intro c hc
  obtain ⟨a, ha, hc⟩ := List.mem_flatMap.mp hc
  exact htexts a ha c hc

theorem Bare.intercalate {divider : List Char} (hdivider : Bare divider)
    {texts : List (List Char)} (htexts : ∀ text ∈ texts, Bare text) :
    Bare (divider.intercalate texts) := by
  induction texts with
  | nil => exact bare_nil
  | cons text rest ih =>
      obtain ⟨htext, hrest⟩ := List.forall_mem_cons.mp htexts
      cases rest with
      | nil => rwa [List.intercalate_singleton]
      | cons next others =>
          rw [List.intercalate_cons_cons]
          exact bare_append.mpr ⟨bare_append.mpr ⟨htext, hdivider⟩, ih hrest⟩

theorem Bare.not_mem_open {text : List Char} (hbare : Bare text) : '<' ∉ text :=
  fun hmem => (hbare _ hmem).1 rfl

theorem Bare.not_mem_close {text : List Char} (hbare : Bare text) : '>' ∉ text :=
  fun hmem => (hbare _ hmem).2 rfl

/-- A whole tag around its inner text. -/
def bracket (inner : List Char) : List Char := '<' :: (inner ++ ['>'])

/-! ## What a cut finds -/

theorem isPrefixOf_cons_append (m : Char) (ms rest : List Char) :
    (m :: ms).isPrefixOf (m :: (ms ++ rest)) :=
  List.isPrefixOf_iff_prefix.mpr (List.prefix_append (m :: ms) rest)

theorem isPrefixOf_cons_of_ne {m c : Char} (hne : m ≠ c) (ms rest : List Char) :
    ¬(m :: ms).isPrefixOf (c :: rest) := by
  simp [List.isPrefixOf, hne]

theorem cut_mark (m : Char) (ms after : List Char) :
    cut (m :: ms) (m :: (ms ++ after)) = some ([], after) := by
  rw [cut, if_pos (isPrefixOf_cons_append m ms after)]
  simp

/-- A text without the first character of a mark stands before all that is cut behind it. -/
theorem cut_text {m : Char} {text : List Char} (htext : m ∉ text) (ms rest : List Char) :
    cut (m :: ms) (text ++ rest) =
      (cut (m :: ms) rest).map fun (before, after) => (text ++ before, after) := by
  induction text with
  | nil => simp
  | cons c text ih =>
      obtain ⟨hne, htext⟩ := not_or.mp (mt List.mem_cons.mpr htext)
      rw [List.cons_append, cut, if_neg (isPrefixOf_cons_of_ne hne _ _), ih htext, Option.map_map]
      rfl

theorem cut_append {m : Char} {before : List Char} (hbefore : m ∉ before)
    (ms after : List Char) :
    cut (m :: ms) (before ++ m :: (ms ++ after)) = some (before, after) := by
  rw [cut_text hbefore, cut_mark]
  simp

/-! ## What a reader finds -/

section ReadEach

variable {β : Type} {read : List Char → Option β} {m : Char} {ms : List Char}

/-- A reader finds nothing in a text without the first character of its mark. -/
theorem readEach_text {text : List Char} (htext : m ∉ text) (rest : List Char) :
    readEach (m :: ms) read (text ++ rest) = readEach (m :: ms) read rest := by
  induction text with
  | nil => rfl
  | cons c text ih =>
      obtain ⟨hne, htext⟩ := not_or.mp (mt List.mem_cons.mpr htext)
      rw [List.cons_append, readEach, if_neg (isPrefixOf_cons_of_ne hne _ _), ih htext]

/-- A reader reads where its mark stands, and goes on behind the mark. -/
theorem readEach_mark (hms : m ∉ ms) (rest : List Char) :
    readEach (m :: ms) read (m :: (ms ++ rest)) =
      (read (m :: (ms ++ rest))).toList ++ readEach (m :: ms) read rest := by
  rw [readEach, if_pos (isPrefixOf_cons_append m ms rest), readEach_text hms]

/-- A reader passes over a text that begins like its mark but is not the mark. -/
theorem readEach_of_not_prefix {text rest : List Char} (htext : m ∉ text)
    (hmark : ¬(m :: ms).isPrefixOf (m :: (text ++ rest))) :
    readEach (m :: ms) read (m :: (text ++ rest)) = readEach (m :: ms) read rest := by
  rw [readEach, if_neg hmark, readEach_text htext]

end ReadEach

/-! ## Tags -/

theorem Bare.not_mem_bracket_tail {inner : List Char} (hbare : Bare inner) :
    '<' ∉ inner ++ ['>'] := by
  simp [hbare.not_mem_open]

/-- Of two tags, one stands at the start of the other only if they are the same. -/
theorem eq_of_bracket_prefix {inner other : List Char} (hinner : Bare inner)
    (hother : Bare other) {rest : List Char}
    (hstart : (inner ++ ['>']).isPrefixOf (other ++ (['>'] ++ rest))) : inner = other := by
  -- neither inner text has a closing bracket, so both tags end at the same place
  induction inner generalizing other with
  | nil =>
      cases other with
      | nil => rfl
      | cons d other => exact absurd (bare_cons.mp hother).1.2.symm (by simpa using hstart)
  | cons c inner ih =>
      obtain ⟨hc, hinner⟩ := bare_cons.mp hinner
      cases other with
      | nil => exact absurd hc.2 (by simp_all)
      | cons d other =>
          simp only [List.cons_append, List.isPrefixOf_cons_cons, Bool.and_eq_true,
            beq_iff_eq] at hstart
          obtain ⟨rfl, hstart⟩ := hstart
          rw [ih hinner (bare_cons.mp hother).2 hstart]

/-- A reader whose mark is a tag reads at that tag, and goes on behind it. -/
theorem readEach_bracket {β : Type} {read : List Char → Option β} {inner : List Char}
    (hinner : Bare inner) (rest : List Char) :
    readEach (bracket inner) read (bracket inner ++ rest) =
      (read (bracket inner ++ rest)).toList ++ readEach (bracket inner) read rest :=
  readEach_mark hinner.not_mem_bracket_tail rest

/-- It passes over every other tag. -/
theorem readEach_bracket_of_ne {β : Type} {read : List Char → Option β}
    {inner other : List Char} (hinner : Bare inner) (hother : Bare other)
    (hne : inner ≠ other) (rest : List Char) :
    readEach (bracket inner) read (bracket other ++ rest) =
      readEach (bracket inner) read rest := by
  refine readEach_of_not_prefix hother.not_mem_bracket_tail fun hmark => hne ?_
  simp only [List.isPrefixOf_cons_cons, beq_self_eq_true, Bool.true_and] at hmark
  exact eq_of_bracket_prefix hinner hother (List.append_assoc .. ▸ hmark)

/-- A tag is read as one part of the page. -/
theorem tags_bracket {inner : List Char} (hinner : Bare inner) (rest : List Char) :
    tags (bracket inner ++ rest) = bracket inner :: tags rest := by
  have hclose : '>' ∉ '<' :: inner := by
    simp [hinner.not_mem_close]
  have htext : tagText (bracket inner ++ rest) = some (bracket inner) := by
    have hcut := cut_append hclose [] rest
    simp only [List.cons_append, List.nil_append] at hcut
    simp [tagText, bracket, hcut]
  calc
    tags (bracket inner ++ rest)
        = (tagText (bracket inner ++ rest)).toList ++ tags (inner ++ ['>'] ++ rest) :=
      readEach_mark List.not_mem_nil _
    _ = bracket inner :: tags rest := by
      rw [htext, tags, readEach_text hinner.not_mem_bracket_tail]
      rfl

theorem tags_text {text : List Char} (hbare : Bare text) (rest : List Char) :
    tags (text ++ rest) = tags rest :=
  readEach_text hbare.not_mem_open rest

end TimingReport.Markup
