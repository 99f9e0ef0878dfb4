import TimingReport.Proofs.Markup.Tags

/-!
# What a reader finds in tokens

A reader with a tag as its mark reads a page place by place, and what it reads at one
place may reach far behind the mark. What it finds in some tokens is therefore stated for
every text that may follow them, so findings of parts add up to findings of the page.
-/

namespace TimingReport.Markup

variable {β : Type} {mark : List Char} {read : List Char → Option β}

/-! ## Tokens without a tag -/

/-- The tokens are clean, and the tag is none of theirs. -/
structure Lacks (mark : List Char) (tokens : List Token) : Prop where
  clean : ∀ token ∈ tokens, token.Clean
  not_mem : mark ∉ inners tokens

namespace Lacks

theorem append_iff {first second : List Token} :
    Lacks mark (first ++ second) ↔ Lacks mark first ∧ Lacks mark second := by
  constructor
  · rintro ⟨hclean, hnone⟩
    obtain ⟨hfirst, hsecond⟩ := List.forall_mem_append.mp hclean
    rw [inners_append, List.mem_append, not_or] at hnone
    exact ⟨⟨hfirst, hnone.1⟩, ⟨hsecond, hnone.2⟩⟩
  · rintro ⟨hfirst, hsecond⟩
    refine ⟨List.forall_mem_append.mpr ⟨hfirst.clean, hsecond.clean⟩, ?_⟩
    rw [inners_append, List.mem_append, not_or]
    exact ⟨hfirst.not_mem, hsecond.not_mem⟩

/-- A block lacks a tag if its own tags and its content do. -/
theorem block_iff {level : Nat} {tag : String} {attributes : List (String × String)}
    {content : List Token} :
    Lacks mark (block level tag attributes content) ↔
      Lacks mark (block level tag attributes []) ∧ Lacks mark content := by
  simp only [block, append_iff]
  constructor
  · rintro ⟨⟨hopening, hcontent⟩, hclosing⟩
    exact ⟨⟨⟨hopening, ⟨fun _ hmem => absurd hmem List.not_mem_nil, List.not_mem_nil⟩⟩, hclosing⟩,
      hcontent⟩
  · rintro ⟨⟨⟨hopening, _⟩, hclosing⟩, hcontent⟩
    exact ⟨⟨hopening, hcontent⟩, hclosing⟩

/-- Layout is no tag. -/
theorem line_nil (level : Nat) : Lacks mark (line level []) :=
  ⟨(WellFormed.line level .nil).clean, by simp⟩

end Lacks

/-- A reader passes over tokens that lack its mark. -/
theorem readEach_render (hmark : Bare mark) {tokens : List Token} (htokens : Lacks mark tokens)
    (rest : List Char) :
    readEach (bracket mark) read ((render tokens).toList ++ rest) =
      readEach (bracket mark) read rest := by
  obtain ⟨hclean, hnone⟩ := htokens
  induction tokens with
  | nil => rfl
  | cons token tokens ih =>
      obtain ⟨htoken, htokens⟩ := List.forall_mem_cons.mp hclean
      rw [toList_render_cons, List.append_assoc]
      cases hinner : token.inner? with
      | none =>
          rw [inners_cons_none hinner] at hnone
          rw [bracket, readEach_text (htoken.bare hinner).not_mem_open]
          exact ih htokens hnone
      | some inner =>
          obtain ⟨hbare, hrender⟩ := htoken.bracket hinner
          rw [inners_cons_some hinner, List.mem_cons, not_or] at hnone
          rw [hrender, readEach_bracket_of_ne hmark hbare hnone.1]
          exact ih htokens hnone.2

/-! ## Findings -/

/-- Whatever follows the tokens, a reader finds `found` in them and goes on behind them. -/
def Finds (mark : List Char) (read : List Char → Option β) (tokens : List Token)
    (found : List β) : Prop :=
  ∀ rest, readEach (bracket mark) read ((render tokens).toList ++ rest) =
    found ++ readEach (bracket mark) read rest

namespace Finds

theorem none_of_lacks (hmark : Bare mark) {tokens : List Token} (htokens : Lacks mark tokens) :
    Finds mark read tokens [] :=
  readEach_render hmark htokens

theorem append {first second : List Token} {found others : List β}
    (hfirst : Finds mark read first found) (hsecond : Finds mark read second others) :
    Finds mark read (first ++ second) (found ++ others) := by
  intro rest
  rw [toList_render_append, List.append_assoc, hfirst, hsecond, List.append_assoc]

theorem flatMap {α : Type} {members : List α} {tokens : α → List Token} {found : α → List β}
    (hmembers : ∀ a ∈ members, Finds mark read (tokens a) (found a)) :
    Finds mark read (members.flatMap tokens) (members.flatMap found) := by
  induction members with
  | nil => exact fun _ => rfl
  | cons a rest ih =>
      obtain ⟨ha, hrest⟩ := List.forall_mem_cons.mp hmembers
      exact ha.append (ih hrest)

/-- A reader whose mark stands in front of tokens that lack the mark finds one thing. -/
theorem of_mark {token : Token} {tokens : List Token} {value : β}
    (htoken : token.Clean) (hinner : token.inner? = some mark) (htokens : Lacks mark tokens)
    (hread : ∀ rest, read ((render (token :: tokens)).toList ++ rest) = some value) :
    Finds mark read (token :: tokens) [value] := by
  intro rest
  obtain ⟨hbare, hrender⟩ := htoken.bracket hinner
  -- what is read may reach behind the tokens, but the search goes on right behind the mark
  have hvalue := hread rest
  rw [toList_render_cons, hrender, List.append_assoc] at hvalue ⊢
  rw [readEach_bracket hbare, hvalue, readEach_render hbare htokens]
  rfl

/-- A block adds nothing to the findings in its content if its own tags are not the mark. -/
theorem block (hmark : Bare mark) {level : Nat} {tag : String}
    {attributes : List (String × String)} {content : List Token} {found : List β}
    (hframe : Lacks mark (block level tag attributes []))
    (hcontent : Finds mark read content found) :
    Finds mark read (block level tag attributes content) found := by
  rw [Markup.block, Lacks.append_iff, List.append_nil] at hframe
  have hopening : Finds mark read (line level [.opening tag attributes]) [] :=
    none_of_lacks hmark hframe.1
  have hclosing : Finds mark read (line level [.closing tag]) [] :=
    none_of_lacks hmark hframe.2
  have hblock := (hopening.append hcontent).append hclosing
  rwa [List.nil_append, List.append_nil] at hblock

theorem line (hmark : Bare mark) (level : Nat) {content : List Token} {found : List β}
    (hcontent : Finds mark read content found) : Finds mark read (line level content) found := by
  have hframe : Lacks mark (Markup.line level []) := .line_nil level
  rw [Markup.line, Lacks.append_iff] at hframe
  have hline := ((none_of_lacks hmark hframe.1).append hcontent).append
    (none_of_lacks hmark hframe.2)
  rwa [List.nil_append, List.append_nil] at hline

/-- All that a reader finds in a page. -/
theorem readEach_eq {tokens : List Token} {found : List β}
    (hfound : Finds mark read tokens found) :
    readEach (bracket mark) read (render tokens).toList = found := by
  have hpage := hfound []
  simpa [readEach] using hpage

end Finds

end TimingReport.Markup
