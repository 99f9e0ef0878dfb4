import TimingReport.Proofs.Markup.WellFormed

/-!
# The tags of a page

A page of well-formed tokens has exactly the tags of its tokens, in order, and they are
well nested: what is opened is closed, the innermost element first.
-/

namespace TimingReport.Markup

/-! ## The nesting of tags -/

/-- The name at the start of the inner text of a tag. -/
def tagName (inner : List Char) : List Char := inner.takeWhile fun c => c != ' ' && c != '>'

/-- What a tag does to the names of the open elements, innermost first. A declaration opens
nothing, and a closing tag must name the innermost element. -/
def nestStep (opened : List (List Char)) : List Char → Option (List (List Char))
  | '<' :: '!' :: _ => some opened
  | '<' :: '/' :: inner =>
      match opened with
      | [] => none
      | innermost :: outer => if tagName inner = innermost then some outer else none
  | '<' :: inner =>
      some (if isVoidName (tagName inner) then opened else tagName inner :: opened)
  | _ => none

/-- Every element that is opened is closed, in stack order. -/
def WellNested (tags : List (List Char)) : Prop := tags.foldlM nestStep [] = some []

instance (tags : List (List Char)) : Decidable (WellNested tags) :=
  inferInstanceAs (Decidable (tags.foldlM nestStep [] = some []))

/-! ## The tags of tokens -/

/-- The inner texts of the tags among tokens. -/
def inners (tokens : List Token) : List (List Char) := tokens.filterMap Token.inner?

/-- The tags of two runs of tokens come one after the other. -/
@[simp] theorem inners_append (first second : List Token) :
    inners (first ++ second) = inners first ++ inners second := List.filterMap_append

theorem inners_flatMap {α : Type} (members : List α) (tokens : α → List Token) :
    inners (members.flatMap tokens) = members.flatMap fun a => inners (tokens a) :=
  List.filterMap_flatMap

theorem inners_cons_none {token : Token} (hinner : token.inner? = none) (tokens : List Token) :
    inners (token :: tokens) = inners tokens := List.filterMap_cons_none hinner

theorem inners_cons_some {token : Token} {inner : List Char}
    (hinner : token.inner? = some inner) (tokens : List Token) :
    inners (token :: tokens) = inner :: inners tokens := List.filterMap_cons_some hinner

@[simp] theorem inners_nil : inners [] = [] := rfl

@[simp] theorem inners_text (content : String) (tokens : List Token) :
    inners (.text content :: tokens) = inners tokens := rfl

@[simp] theorem inners_verbatim (content : String) (tokens : List Token) :
    inners (.verbatim content :: tokens) = inners tokens := rfl

@[simp] theorem inners_opening (tag : String) (attributes : List (String × String))
    (tokens : List Token) :
    inners (.opening tag attributes :: tokens) =
      (tag.toList ++ (Token.attributesText attributes).toList) :: inners tokens := rfl

@[simp] theorem inners_closing (tag : String) (tokens : List Token) :
    inners (.closing tag :: tokens) = ('/' :: tag.toList) :: inners tokens := rfl

@[simp] theorem inners_void (tag : String) (attributes : List (String × String))
    (tokens : List Token) :
    inners (.void tag attributes :: tokens) =
      (tag.toList ++ (Token.attributesText attributes).toList) :: inners tokens := rfl

@[simp] theorem inners_line (level : Nat) (tokens : List Token) :
    inners (line level tokens) = inners tokens := by
  simp [line]

/-- The tags of an element stand around those of its content. -/
@[simp] theorem inners_element (tag : String) (attributes : List (String × String))
    (content : List Token) :
    inners (element tag attributes content) =
      (tag.toList ++ (Token.attributesText attributes).toList) ::
        (inners content ++ ['/' :: tag.toList]) := by
  simp [element]

/-- Line breaks and indents have no tags. -/
@[simp] theorem inners_block (level : Nat) (tag : String)
    (attributes : List (String × String)) (content : List Token) :
    inners (block level tag attributes content) = inners (element tag attributes content) := by
  simp [block]

theorem toList_render_cons (token : Token) (tokens : List Token) :
    (render (token :: tokens)).toList = token.render.toList ++ (render tokens).toList := by
  simp [render, String.toList_join]

/-- Tokens are rendered one after the other. -/
theorem toList_render_append (first second : List Token) :
    (render (first ++ second)).toList = (render first).toList ++ (render second).toList := by
  simp [render, String.toList_join]

/-- A page has the tags of its tokens. -/
theorem tags_render {tokens : List Token} (hclean : ∀ token ∈ tokens, token.Clean) :
    tags (render tokens).toList = (inners tokens).map bracket := by
  induction tokens with
  | nil => rfl
  | cons token rest ih =>
      obtain ⟨htoken, hrest⟩ := List.forall_mem_cons.mp hclean
      rw [toList_render_cons]
      cases hinner : token.inner? with
      | none =>
          rw [tags_text (htoken.bare hinner), ih hrest, inners_cons_none hinner]
      | some inner =>
          obtain ⟨hbare, hrender⟩ := htoken.bracket hinner
          rw [hrender, tags_bracket hbare, ih hrest, inners_cons_some hinner, List.map_cons]

/-! ## Names of tags -/

/-- The name of a tag ends at the first blank or bracket. -/
theorem takeWhile_name_append {name : List Char} (hname : name.all Char.isAlphanum)
    {next : Char} (hnext : next = ' ' ∨ next = '>') (rest : List Char) :
    tagName (name ++ next :: rest) = name := by
  have hin : ∀ c ∈ name, (c != ' ' && c != '>') = true := by
    intro c hc
    have halphanum := List.all_eq_true.mp hname c hc
    rw [Bool.and_eq_true, bne_iff_ne, bne_iff_ne]
    constructor <;> (rintro rfl; exact absurd halphanum (by decide))
  have hout : (next :: rest).takeWhile (fun c => c != ' ' && c != '>') = [] := by
    rcases hnext with rfl | rfl <;> rfl
  rw [tagName, List.takeWhile_append_of_pos hin, hout, List.append_nil]

/-- Attributes begin with the blank that divides them from the name before them. -/
theorem attributesText_eq_nil_or_cons (attributes : List (String × String)) :
    (Token.attributesText attributes).toList = [] ∨
      ∃ rest, (Token.attributesText attributes).toList = ' ' :: rest := by
  cases attributes with
  | nil => exact .inl rfl
  | cons a attributes =>
      right
      simp only [Token.attributesText, List.map_cons, String.toList_join, List.flatMap_cons,
        String.toList_append]
      exact ⟨_, rfl⟩

/-- An opening tag has its element's name, whatever its attributes are. -/
theorem tagName_opening {name : List Char} (hname : name.all Char.isAlphanum)
    (attributes : List (String × String)) :
    tagName ((name ++ (Token.attributesText attributes).toList) ++ ['>']) = name := by
  rw [List.append_assoc]
  rcases attributesText_eq_nil_or_cons attributes with hnil | ⟨rest, hcons⟩
  · rw [hnil]
    exact takeWhile_name_append hname (.inr rfl) []
  · rw [hcons]
    exact takeWhile_name_append hname (.inl rfl) (rest ++ ['>'])

/-- A closing tag has its element's name. -/
theorem tagName_closing {name : List Char} (hname : name.all Char.isAlphanum) :
    tagName (name ++ ['>']) = name :=
  takeWhile_name_append hname (.inr rfl) []

/-! ## Nesting -/

/-- A tag with a name opens an element, unless the element is void. -/
theorem nestStep_name {c : Char} (hbang : c ≠ '!') (hslash : c ≠ '/') (inner : List Char)
    (opened : List (List Char)) :
    nestStep opened ('<' :: c :: inner) =
      some (if isVoidName (tagName (c :: inner)) then opened
        else tagName (c :: inner) :: opened) := by
  rw [nestStep]
  · simpa using hbang
  · simpa using hslash

/-- An opening tag opens an element unless that has no closing tag. -/
theorem nestStep_opening {name : List Char} (hnil : name ≠ [])
    (hname : name.all Char.isAlphanum) (attributes : List (String × String))
    (opened : List (List Char)) :
    nestStep opened (bracket (name ++ (Token.attributesText attributes).toList)) =
      some (if isVoidName name then opened else name :: opened) := by
  obtain ⟨c, letters, rfl⟩ := List.exists_cons_of_ne_nil hnil
  have hc : c.isAlphanum := List.all_eq_true.mp hname c List.mem_cons_self
  have hbang : c ≠ '!' := by
    rintro rfl
    exact absurd hc (by decide)
  have hslash : c ≠ '/' := by
    rintro rfl
    exact absurd hc (by decide)
  have htag := tagName_opening hname attributes
  rw [bracket, List.cons_append, List.cons_append, nestStep_name hbang hslash]
  rw [List.cons_append, List.cons_append] at htag
  rw [htag]

/-- A closing tag ends the innermost element. -/
theorem nestStep_closing {name : List Char} (hname : name.all Char.isAlphanum)
    (opened : List (List Char)) :
    nestStep (name :: opened) (bracket ('/' :: name)) = some opened := by
  change (if tagName (name ++ ['>']) = name then some opened else none) = some opened
  rw [if_pos (tagName_closing hname)]

/-- Well-formed tokens leave the open elements as they were. -/
theorem WellFormed.foldlM_nestStep {tokens : List Token} (htokens : WellFormed tokens)
    (opened : List (List Char)) :
    ((inners tokens).map bracket).foldlM nestStep opened = some opened := by
  -- the open elements stay general: content is read with the name of its element on top
  induction htokens generalizing opened with
  | nil => rfl
  | doctype => rfl
  | text content => rfl
  | verbatim hbare => rfl
  | @void tag attributes htag hnames =>
      have hname : tag.toList ≠ [] ∧ tag.toList.all Char.isAlphanum := by
        simp only [isVoidName, Bool.or_eq_true, beq_iff_eq] at htag
        rcases htag with htag | htag <;> rw [htag] <;> decide
      have hstep := nestStep_opening hname.1 hname.2 attributes opened
      rw [if_pos htag] at hstep
      rw [inners_cons_some rfl, List.map_cons, List.foldlM_cons, hstep]
      rfl
  | @element tag attributes content htag hnames hcontent ih =>
      simp only [isElementName, Bool.and_eq_true, Bool.not_eq_true', List.isEmpty_eq_false_iff]
        at htag
      obtain ⟨⟨hnil, hname⟩, hvoid⟩ := htag
      have hopening := nestStep_opening hnil hname attributes opened
      rw [if_neg (by simp [hvoid])] at hopening
      rw [inners_element, List.map_cons, List.foldlM_cons, hopening, Option.bind_eq_bind,
        Option.bind_some, List.map_append, List.foldlM_append, ih, Option.bind_eq_bind,
        Option.bind_some, List.map_singleton, List.foldlM_cons, nestStep_closing hname]
      rfl
  | append _ _ ihfirst ihsecond =>
      rw [inners_append, List.map_append, List.foldlM_append, ihfirst]
      exact ihsecond opened

/-- The tags of well-formed tokens are well nested. -/
theorem WellFormed.wellNested {tokens : List Token} (htokens : WellFormed tokens) :
    WellNested ((inners tokens).map bracket) :=
  htokens.foldlM_nestStep []

end TimingReport.Markup
