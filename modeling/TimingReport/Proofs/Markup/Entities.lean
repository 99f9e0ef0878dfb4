import TimingReport.Markup
import TimingReport.Proofs.Amount.Figures

/-!
# Entities

Reading the entities of an escaped text from the left gives the text back, also when it
already looks like entities. An escaped text has no character that begins, ends or quotes
markup, and its ampersands begin entities only. Texts are escaped one behind another.
-/

namespace TimingReport.Markup

/-- Characters as they stand in a page. -/
def escapeChars (text : List Char) : List Char := text.flatMap escapedChar

/-- Each of the five entities as the character it stands for, read from the left. -/
def unescape : List Char → List Char
  | [] => []
  | '&' :: 'a' :: 'm' :: 'p' :: ';' :: rest => '&' :: unescape rest
  | '&' :: 'l' :: 't' :: ';' :: rest => '<' :: unescape rest
  | '&' :: 'g' :: 't' :: ';' :: rest => '>' :: unescape rest
  | '&' :: 'q' :: 'u' :: 'o' :: 't' :: ';' :: rest => '"' :: unescape rest
  | '&' :: '#' :: '3' :: '9' :: ';' :: rest => '\'' :: unescape rest
  | c :: rest => c :: unescape rest

/-! ## Escaped characters -/

/-- The characters that are replaced by entities. -/
def isSpecial (c : Char) : Bool := ['&', '<', '>', '"', '\''].contains c

theorem escapedChar_of_not_special {c : Char} (hc : ¬isSpecial c) : escapedChar c = [c] := by
  unfold escapedChar
  split
  case h_6 => rfl
  all_goals exact absurd rfl hc

theorem unescape_cons {c : Char} (hc : c ≠ '&') (rest : List Char) :
    unescape (c :: rest) = c :: unescape rest := by
  rw [unescape] <;> simp_all

/-- An escaped character is read back whatever follows it. -/
theorem unescape_escapedChar_append (c : Char) (rest : List Char) :
    unescape (escapedChar c ++ rest) = c :: unescape rest := by
  by_cases hc : isSpecial c
  · -- every entity ends with its own semicolon, so the text behind it is not looked at
    simp only [isSpecial, List.contains_iff_mem, List.mem_cons, List.not_mem_nil, or_false] at hc
    rcases hc with rfl | rfl | rfl | rfl | rfl <;> rfl
  · rw [escapedChar_of_not_special hc, List.singleton_append]
    refine unescape_cons ?_ rest
    rintro rfl
    exact hc rfl

/-! ## Escaped texts -/

@[simp] theorem toList_escape (text : String) : (escape text).toList = escapeChars text.toList :=
  String.toList_ofList

theorem escapeChars_append (first second : List Char) :
    escapeChars (first ++ second) = escapeChars first ++ escapeChars second :=
  List.flatMap_append

theorem unescape_escapeChars (text : List Char) : unescape (escapeChars text) = text := by
  induction text with
  | nil => rfl
  | cons c rest ih =>
      have hrest : unescape (escapeChars rest) = rest := ih
      rw [escapeChars, List.flatMap_cons, unescape_escapedChar_append]
      exact congrArg (c :: ·) hrest

theorem not_special_of_mem_escapedChar {c d : Char} (hd : d ∈ escapedChar c) :
    d = '&' ∨ ¬isSpecial d := by
  by_cases hc : isSpecial c
  · simp only [isSpecial, List.contains_iff_mem, List.mem_cons, List.not_mem_nil, or_false] at hc
    have hall : (escapedChar c).all fun d => d == '&' || !isSpecial d := by
      rcases hc with rfl | rfl | rfl | rfl | rfl <;> decide
    simpa using List.all_eq_true.mp hall d hd
  · rw [escapedChar_of_not_special hc, List.mem_singleton] at hd
    exact .inr (hd ▸ hc)

/-- An ampersand is the only special character of an escaped text. -/
theorem not_special_of_mem_escapeChars {text : List Char} {d : Char}
    (hd : d ∈ escapeChars text) : d = '&' ∨ ¬isSpecial d := by
  obtain ⟨c, _, hd⟩ := List.mem_flatMap.mp hd
  exact not_special_of_mem_escapedChar hd

/-- No character of the text is replaced by an entity. -/
def Literal (text : List Char) : Prop := ∀ c ∈ text, ¬isSpecial c

instance (text : List Char) : Decidable (Literal text) :=
  List.decidableBAll (fun c : Char => ¬isSpecial c) text

@[simp] theorem literal_append {first second : List Char} :
    Literal (first ++ second) ↔ Literal first ∧ Literal second := List.forall_mem_append

theorem literal_of_figures {text : List Char} (htext : Amount.Figures text) : Literal text := by
  intro c hc hspecial
  have hfigure := htext c hc
  simp only [isSpecial, List.contains_iff_mem, List.mem_cons, List.not_mem_nil, or_false]
    at hspecial
  rcases hspecial with rfl | rfl | rfl | rfl | rfl <;> exact absurd hfigure (by decide)

/-- A text without special characters is its own escape. -/
theorem escapeChars_of_literal {text : List Char} (htext : Literal text) :
    escapeChars text = text := by
  induction text with
  | nil => rfl
  | cons c rest ih =>
      obtain ⟨hc, hrest⟩ := List.forall_mem_cons.mp htext
      rw [escapeChars, List.flatMap_cons, escapedChar_of_not_special hc]
      exact congrArg (c :: ·) (ih hrest)

/-! ## Ampersands -/

/-- What the special characters are replaced by. -/
def entities : List (List Char) :=
  ["&amp;".toList, "&lt;".toList, "&gt;".toList, "&quot;".toList, "&#39;".toList]

/-- Every ampersand of the text is the first character of an entity. -/
def BeginsEntities (text : List Char) : Prop :=
  ∀ rest, '&' :: rest <:+ text → ∃ entity ∈ entities, entity <+: '&' :: rest

/-- An ampersand stands at the front of an escaped character only, and only of an entity. -/
theorem exists_escapedChar (c : Char) :
    ∃ d tail, escapedChar c = d :: tail ∧ '&' ∉ tail ∧ (d = '&' → escapedChar c ∈ entities) := by
  by_cases hc : isSpecial c
  · simp only [isSpecial, List.contains_iff_mem, List.mem_cons, List.not_mem_nil, or_false] at hc
    rcases hc with rfl | rfl | rfl | rfl | rfl <;> exact ⟨'&', _, rfl, by decide, by decide⟩
  · refine ⟨c, [], escapedChar_of_not_special hc, List.not_mem_nil, ?_⟩
    rintro rfl
    exact absurd rfl hc

/-- A part that begins with a character which `first` lacks lies behind `first`. -/
theorem suffix_of_suffix_append {c : Char} {rest first second : List Char} (hfirst : c ∉ first)
    (hsuffix : c :: rest <:+ first ++ second) : c :: rest <:+ second := by
  induction first with
  | nil => exact hsuffix
  | cons d first ih =>
      obtain ⟨hd, hfirst⟩ := List.ne_and_not_mem_of_not_mem_cons hfirst
      rcases List.suffix_cons_iff.mp hsuffix with heq | hsuffix
      · exact absurd (List.cons.inj heq).1 hd
      · exact ih hfirst hsuffix

theorem BeginsEntities.escapedChar_append (c : Char) {text : List Char}
    (htext : BeginsEntities text) : BeginsEntities (escapedChar c ++ text) := by
  intro rest hsuffix
  obtain ⟨d, tail, hescaped, htail, hentity⟩ := exists_escapedChar c
  rw [hescaped, List.cons_append] at hsuffix
  rcases List.suffix_cons_iff.mp hsuffix with heq | hsuffix
  · obtain rfl := (List.cons.inj heq).1
    refine ⟨escapedChar c, hentity rfl, ?_⟩
    rw [heq, hescaped]
    exact List.prefix_append ('&' :: tail) text
  · exact htext rest (suffix_of_suffix_append htail hsuffix)

theorem beginsEntities_escapeChars (text : List Char) : BeginsEntities (escapeChars text) := by
  induction text with
  | nil => exact fun _ hsuffix => absurd (List.suffix_nil.mp hsuffix) (List.cons_ne_nil _ _)
  | cons c text ih => exact ih.escapedChar_append c

/-- Escaping loses nothing. Its entities are read back from the left as the text that was
escaped, which has no markup left and no ampersand but those of entities. A text is escaped
part by part, and no two texts are escaped alike, even if they look like entities already. -/
theorem escape_lossless :
    (∀ text : String, unescape (escape text).toList = text.toList) ∧
    (∀ text : String, ∀ c ∈ ['<', '>', '"', '\''], c ∉ (escape text).toList) ∧
    (∀ text : String, BeginsEntities (escape text).toList) ∧
    (∀ first second : String, escape (first ++ second) = escape first ++ escape second) ∧
    ∀ first second : String, escape first = escape second → first = second := by
  have hread : ∀ text : String, unescape (escape text).toList = text.toList := by
    intro text
    rw [toList_escape, unescape_escapeChars]
  refine ⟨hread, fun text c hc hmem => ?_, fun text => ?_, fun first second => ?_,
    fun first second heq => ?_⟩
  · rw [toList_escape] at hmem
    have hspecial : c ≠ '&' ∧ isSpecial c := by
      simp only [List.mem_cons, List.not_mem_nil, or_false] at hc
      rcases hc with rfl | rfl | rfl | rfl <;> exact ⟨by decide, rfl⟩
    rcases not_special_of_mem_escapeChars hmem with hampersand | hnot
    · exact hspecial.1 hampersand
    · exact hnot hspecial.2
  · rw [toList_escape]
    exact beginsEntities_escapeChars text.toList
  · refine String.toList_inj.mp ?_
    rw [String.toList_append, toList_escape, toList_escape, toList_escape, String.toList_append,
      escapeChars_append]
  · refine String.toList_inj.mp ?_
    rw [← hread first, heq, hread second]

/-- A text that ends in part of an entity is read back, too. -/
example : unescape (escape "&lt;<&am").toList = "&lt;<&am".toList := by decide

end TimingReport.Markup
