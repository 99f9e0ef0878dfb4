import TimingReport.Proofs.Markup.Finds

/-!
# Reading elements

Readers that know only where cells and plain elements begin and end. What they read of an
element whose content is text is the text as it was given.
-/

namespace TimingReport.Markup

/-! ## Readers -/

/-- The content of the next cell of a table, and the text behind the cell. -/
def readCell (text : List Char) : Option (List Char × List Char) := do
  let (_, tag) ← cut "<td".toList text
  let (_, inside) ← cut ">".toList tag
  cut "</td>".toList inside

/-- The decoded contents of the next cells. -/
def readCells : Nat → List Char → Option (List String)
  | 0, _ => some []
  | count + 1, text => do
      let (content, rest) ← readCell text
      (readCells count rest).map (String.ofList (unescape content) :: ·)

/-- The decoded content of the next element with a plain tag. -/
def readElement (tag : String) (text : List Char) : Option String := do
  let (_, inside) ← cut ("<" ++ tag ++ ">").toList text
  let (content, _) ← cut ("</" ++ tag ++ ">").toList inside
  return String.ofList (unescape content)

/-- The decoded contents of all elements with a plain tag. -/
def readElements (tag : String) (page : List Char) : List String :=
  readEach ("<" ++ tag ++ ">").toList (readElement tag) page

/-! ## Cells -/

/-- A cell is read whatever follows it. -/
theorem readCell_append {attributes content : List Char} (hattributes : Bare attributes)
    (hcontent : Bare content) (rest : List Char) :
    readCell (bracket ("td".toList ++ attributes) ++ (content ++ (bracket "/td".toList ++ rest))) =
      some (content, rest) := by
  have hinside := cut_append hattributes.not_mem_close []
    (content ++ (bracket "/td".toList ++ rest))
  have hclosing := cut_append hcontent.not_mem_open ['/', 't', 'd', '>'] rest
  have htext : bracket ("td".toList ++ attributes) ++
      (content ++ (bracket "/td".toList ++ rest)) =
        '<' :: (['t', 'd'] ++
          (attributes ++ '>' :: (content ++ (bracket "/td".toList ++ rest)))) := by
    simp [bracket]
  have hend : content ++ (bracket "/td".toList ++ rest) =
      content ++ '<' :: (['/', 't', 'd', '>'] ++ rest) := by
    simp [bracket]
  have hopen : "<td".toList = '<' :: ['t', 'd'] := by decide
  have hclose : ">".toList = ['>'] := by decide
  have hclosingTag : "</td>".toList = '<' :: ['/', 't', 'd', '>'] := by decide
  rw [List.nil_append] at hinside
  unfold readCell
  rw [htext, hopen, hclose, hclosingTag, cut_mark, Option.bind_eq_bind, Option.bind_some]
  dsimp only
  rw [hinside, Option.bind_some, hend]
  exact hclosing

/-- Bare text before a cell does not matter. -/
theorem readCell_text {before : List Char} (hbefore : Bare before) (text : List Char) :
    readCell (before ++ text) = readCell text := by
  change (cut ['<', 't', 'd'] _).bind _ = (cut ['<', 't', 'd'] _).bind _
  rw [cut_text hbefore.not_mem_open]
  cases cut ['<', 't', 'd'] text <;> rfl

theorem readCells_text {before : List Char} (hbefore : Bare before) (count : Nat)
    (text : List Char) : readCells count (before ++ text) = readCells count text := by
  cases count with
  | zero => rfl
  | succ count => rw [readCells, readCells, readCell_text hbefore]

/-- What a reader of cells makes of the content of a cell. -/
def cellText (content : Token) : String := String.ofList (unescape content.render.toList)

/-! ## Elements of text -/

theorem toList_render_texts (texts : List String) :
    (Markup.render (texts.map .text)).toList = escapeChars (String.join texts).toList := by
  induction texts with
  | nil => rfl
  | cons text texts ih =>
      have hjoin : (String.join (text :: texts)).toList =
          text.toList ++ (String.join texts).toList := by
        simp [String.toList_join]
      rw [List.map_cons, toList_render_cons, ih, hjoin, escapeChars_append, Token.render,
        toList_escape]

theorem inners_texts (texts : List String) : inners (texts.map .text) = [] := by
  induction texts with
  | nil => rfl
  | cons text texts ih => exact ih

theorem readElement_element (tag : String) (texts : List String) (rest : List Char) :
    readElement tag ((Markup.render (element tag [] (texts.map .text))).toList ++ rest) =
      some (String.join texts) := by
  have hopening : ("<" ++ tag ++ ">").toList = '<' :: (tag.toList ++ ['>']) := by simp
  have hclosing : ("</" ++ tag ++ ">").toList = '<' :: ('/' :: (tag.toList ++ ['>'])) := by simp
  have htext : (Markup.render (element tag [] (texts.map .text))).toList ++ rest =
      '<' :: ((tag.toList ++ ['>']) ++ (escapeChars (String.join texts).toList ++
        '<' :: (('/' :: (tag.toList ++ ['>'])) ++ rest))) := by
    rw [element, List.cons_append, toList_render_cons, toList_render_append, toList_render_texts]
    simp [Markup.render, Token.render, Token.attributesText]
  have hcontent := (bare_escapeChars (String.join texts).toList).not_mem_open
  unfold readElement
  rw [htext, hopening, hclosing, cut_mark, Option.bind_eq_bind, Option.bind_some]
  dsimp only
  rw [cut_append hcontent, Option.bind_some, unescape_escapeChars, String.ofList_toList]
  rfl

theorem wellFormed_texts (texts : List String) : WellFormed (texts.map .text) := by
  induction texts with
  | nil => exact .nil
  | cons text texts ih => exact (WellFormed.text text).append ih

/-- A reader of elements finds the texts in an element with its tag, as they were given. -/
theorem finds_element (tag : String) (htag : isElementName tag.toList) (texts : List String) :
    Finds tag.toList (readElement tag) (element tag [] (texts.map .text)) [String.join texts] := by
  have hnone : BareNames [] := by decide
  have hclean := (WellFormed.element htag hnone (wellFormed_texts texts)).clean
  obtain ⟨hopening, hbehind⟩ := List.forall_mem_cons.mp hclean
  have hinner : (Token.opening tag []).inner? = some tag.toList :=
    congrArg some (List.append_nil _)
  have hother : tag.toList ≠ '/' :: tag.toList := (List.cons_ne_self _ _).symm
  exact .of_mark hopening hinner ⟨hbehind, by simp [inners_texts, hother]⟩
    (readElement_element tag texts)

end TimingReport.Markup
