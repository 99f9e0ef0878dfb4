import TimingReport.Proofs.Markup.Entities
import TimingReport.Proofs.Markup.Reader

/-!
# Well-formed tokens

A grammar of token lists: text, plain parts without angle brackets, void elements and
elements around well-formed content. In such a list the angle brackets of every tag are
its own, and all that is no tag has none, whatever the texts are.
-/

namespace TimingReport.Markup

/-! ## The grammar -/

/-- The element has no closing tag. -/
def isVoidName (name : List Char) : Bool := name == "meta".toList || name == "br".toList

/-- A name for elements with a closing tag. -/
def isElementName (name : List Char) : Bool :=
  !name.isEmpty && name.all Char.isAlphanum && !isVoidName name

/-- No name of an attribute has an angle bracket. -/
def BareNames (attributes : List (String × String)) : Prop :=
  ∀ a ∈ attributes, Bare a.1.toList

instance (attributes : List (String × String)) : Decidable (BareNames attributes) :=
  List.decidableBAll (fun a : String × String => Bare a.1.toList) attributes

theorem bareNames_ofClass (name : String) : BareNames (ofClass name) := by
  intro a ha
  rw [List.mem_singleton.mp ha]
  change Bare "class".toList
  decide

/-- Token lists in which elements are closed where they were opened. -/
inductive WellFormed : List Token → Prop
  | nil : WellFormed []
  | doctype : WellFormed [.doctype]
  | text (content : String) : WellFormed [.text content]
  | verbatim {content : String} (hbare : Bare content.toList) : WellFormed [.verbatim content]
  | void {tag : String} {attributes : List (String × String)} (htag : isVoidName tag.toList)
      (hnames : BareNames attributes) : WellFormed [.void tag attributes]
  | element {tag : String} {attributes : List (String × String)} {content : List Token}
      (htag : isElementName tag.toList) (hnames : BareNames attributes)
      (hcontent : WellFormed content) : WellFormed (element tag attributes content)
  | append {first second : List Token} (hfirst : WellFormed first)
      (hsecond : WellFormed second) : WellFormed (first ++ second)

namespace WellFormed

/-- A line of well-formed tokens is well-formed. -/
theorem line {tokens : List Token} (level : Nat) (htokens : WellFormed tokens) :
    WellFormed (line level tokens) := by
  have hindent : Bare (String.ofList (List.replicate (4 * level) ' ')).toList := by
    intro c hc
    rw [String.toList_ofList] at hc
    rw [List.eq_of_mem_replicate hc]
    decide
  exact ((verbatim hindent).append htokens).append (verbatim (by decide))

/-- A block is an element whose content begins and ends with layout. -/
theorem block {tag : String} {attributes : List (String × String)} {content : List Token}
    (level : Nat) (htag : isElementName tag.toList) (hnames : BareNames attributes)
    (hcontent : WellFormed content) : WellFormed (block level tag attributes content) := by
  have hindent : Bare (String.ofList (List.replicate (4 * level) ' ')).toList := by
    intro c hc
    rw [String.toList_ofList] at hc
    rw [List.eq_of_mem_replicate hc]
    decide
  have hbreak : WellFormed [.verbatim "\n"] := verbatim (by decide)
  have hinner := element htag hnames ((hbreak.append hcontent).append (verbatim hindent))
  have hblock := ((verbatim hindent).append hinner).append hbreak
  simpa [Markup.block, Markup.line, Markup.element] using hblock

/-- Well-formed tokens in a row are well-formed. -/
theorem flatMap {α : Type} {members : List α} {tokens : α → List Token}
    (htokens : ∀ a ∈ members, WellFormed (tokens a)) : WellFormed (members.flatMap tokens) := by
  induction members with
  | nil => exact nil
  | cons a rest ih =>
      obtain ⟨ha, hrest⟩ := List.forall_mem_cons.mp htokens
      exact ha.append (ih hrest)

end WellFormed

/-! ## Tokens as tags -/

namespace Token

/-- The text between the angle brackets of a token that is a tag. -/
def inner? : Token → Option (List Char)
  | doctype => some "!DOCTYPE html".toList
  | opening tag attributes => some (tag.toList ++ (attributesText attributes).toList)
  | closing tag => some ('/' :: tag.toList)
  | void tag attributes => some (tag.toList ++ (attributesText attributes).toList)
  | text _ => none
  | verbatim _ => none

/-- A tag has no angle brackets but its own, and any other token has none. -/
def Clean (token : Token) : Prop :=
  match token.inner? with
  | some inner => Bare inner ∧ token.render.toList = bracket inner
  | none => Bare token.render.toList

variable {token : Token}

/-- A token without brackets is printed without them. -/
theorem Clean.bare (hclean : token.Clean) (hinner : token.inner? = none) :
    Bare token.render.toList := by
  unfold Clean at hclean
  rwa [hinner] at hclean

/-- A tag is printed in a single pair of brackets. -/
theorem Clean.bracket {inner : List Char} (hclean : token.Clean)
    (hinner : token.inner? = some inner) :
    Bare inner ∧ token.render.toList = bracket inner := by
  unfold Clean at hclean
  rwa [hinner] at hclean

end Token

/-- Escaped text has no brackets. -/
theorem bare_escapeChars (text : List Char) : Bare (escapeChars text) := by
  intro c hc
  rcases not_special_of_mem_escapeChars hc with rfl | hspecial
  · decide
  · constructor <;> (rintro rfl; exact hspecial rfl)

/-- Attributes have no brackets, since their values are escaped. -/
theorem bare_attributesText {attributes : List (String × String)}
    (hnames : BareNames attributes) : Bare (Token.attributesText attributes).toList := by
  rw [Token.attributesText, String.toList_join, List.flatMap_map]
  refine Bare.flatMap fun a ha => ?_
  simp only [String.toList_append, bare_append, toList_escape]
  exact ⟨⟨⟨⟨by decide, hnames a ha⟩, by decide⟩, bare_escapeChars _⟩, by decide⟩

theorem bare_of_isAlphanum {name : List Char} (hname : name.all Char.isAlphanum) :
    Bare name := by
  intro c hc
  have halphanum := List.all_eq_true.mp hname c hc
  constructor <;> (rintro rfl; exact absurd halphanum (by decide))

/-- Names of elements have no brackets. -/
theorem bare_of_isElementName {name : List Char} (hname : isElementName name) : Bare name := by
  simp only [isElementName, Bool.and_eq_true] at hname
  exact bare_of_isAlphanum hname.1.2

theorem bare_of_isVoidName {name : List Char} (hname : isVoidName name) : Bare name := by
  simp only [isVoidName, Bool.or_eq_true, beq_iff_eq] at hname
  rcases hname with rfl | rfl <;> decide

/-- Every token of the grammar is clean. -/
theorem WellFormed.clean {tokens : List Token} (htokens : WellFormed tokens) :
    ∀ token ∈ tokens, token.Clean := by
  induction htokens with
  | nil => simp
  | doctype => simpa [Token.Clean, Token.inner?, Token.render] using by decide
  | text content => simpa [Token.Clean, Token.inner?, Token.render] using bare_escapeChars _
  | verbatim hbare => simpa [Token.Clean, Token.inner?, Token.render] using hbare
  | void htag hnames =>
      have hinner := bare_append.mpr ⟨bare_of_isVoidName htag, bare_attributesText hnames⟩
      simpa [Token.Clean, Token.inner?, Token.render, bracket] using hinner
  | element htag hnames _ ih =>
      have hname := bare_of_isElementName htag
      have hopening := bare_append.mpr ⟨hname, bare_attributesText hnames⟩
      intro token hmem
      simp only [Markup.element, List.mem_append, List.mem_cons, List.not_mem_nil,
        or_false] at hmem
      rcases hmem with (rfl | hcontent) | rfl
      · simpa [Token.Clean, Token.inner?, Token.render, bracket] using hopening
      · exact ih token hcontent
      · simpa [Token.Clean, Token.inner?, Token.render, bracket] using hname
  | append _ _ ihfirst ihsecond =>
      exact List.forall_mem_append.mpr ⟨ihfirst, ihsecond⟩

end TimingReport.Markup
