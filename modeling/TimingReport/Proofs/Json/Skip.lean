import TimingReport.Json.Skip
import TimingReport.Proofs.Json.Grammar

/-!
# Passing over values

The state machine that passes over a value needs no more than the grammar: whatever the
value is and however deep it goes, the machine stops right behind it.
-/

namespace TimingReport.Json.Skip

/-- What is left when a value inside the given brackets has ended before `rest`. -/
def resume (stack : List Frame) (rest : Symbols) : Except Fault Symbols :=
  match stack with
  | [] => .ok rest
  | _ :: _ => run .ended stack rest

/-! ## Single steps -/

/-- A step that goes on leaves the rest to its successor. -/
theorem run_cons_next {state next : State} {stack inner : List Frame} {s : Option Char}
    {rest : Symbols} (hstep : step state stack s rest = .next next inner) :
    run state stack (s :: rest) = run next inner rest := by
  rw [run, hstep]

/-- A symbol that closes the innermost bracket ends a value. -/
theorem run_cons_close {state : State} {stack outer : List Frame} {s : Option Char}
    {rest : Symbols} (hstep : step state stack s rest = close outer) :
    run state stack (s :: rest) = resume outer rest := by
  rw [run, hstep]
  cases outer <;> rfl

/-- White space does not change a state that waits for the next part. -/
theorem run_blank {state : State} {stack : List Frame} {gap : Symbols} (hgap : Blank gap)
    (hstate : ∀ s tail, isBlank s → step state stack s tail = .next state stack)
    (rest : Symbols) : run state stack (gap ++ rest) = run state stack rest := by
  induction gap with
  | nil => rfl
  | cons s gap ih =>
      obtain ⟨hs, hgap⟩ := List.forall_mem_cons.mp hgap
      rw [List.cons_append, run_cons_next (hstate s _ hs), ih hgap]

/-- Digits do not change a state that waits for more of them. -/
theorem run_digits {state : State} {stack : List Frame} {digits : Symbols}
    (hdigits : ∀ d ∈ digits, isDigit d)
    (hstate : ∀ s tail, isDigit s → step state stack s tail = .next state stack)
    (rest : Symbols) : run state stack (digits ++ rest) = run state stack rest := by
  induction digits with
  | nil => rfl
  | cons d digits ih =>
      obtain ⟨hd, hdigits⟩ := List.forall_mem_cons.mp hdigits
      rw [List.cons_append, run_cons_next (hstate d _ hd), ih hdigits]

/-! ## Literals -/

/-- A word is passed over letter by letter. -/
theorem run_literal (c : Char) (more : List Char) (stack : List Frame) (rest : Symbols) :
    run (.literal (c :: more)) stack ((c :: more).map some ++ rest) = resume stack rest := by
  induction more generalizing c with
  | nil => exact run_cons_close (by simp [step])
  | cons d more ih => exact (run_cons_next (by simp [step])).trans (ih d)

/-! ## Numbers -/

/-- A state in which a number may be complete. -/
structure Finished (state : State) (stack : List Frame) : Prop where
  step_eq : ∀ s tail, ¬isDigit s → s ≠ some '.' → step state stack s tail = afterDigits stack s
  atEnd_eq : atEnd state stack = endOfValue stack

theorem finished_zero (stack : List Frame) : Finished .zero stack where
  step_eq s tail hdigit hpoint := by simp [step, afterWhole, hdigit, hpoint]
  atEnd_eq := rfl

theorem finished_whole (stack : List Frame) : Finished .whole stack where
  step_eq s tail hdigit hpoint := by simp [step, afterWhole, hdigit, hpoint]
  atEnd_eq := rfl

theorem finished_fraction (stack : List Frame) : Finished .fraction stack where
  step_eq s tail hdigit _ := by simp [step, hdigit]
  atEnd_eq := rfl

/-- A state in which every symbol comes after the value is left at once. -/
theorem run_eq_resume {state : State} {stack : List Frame} {rest : Symbols}
    (hend : atEnd state stack = endOfValue stack)
    (hstep : ∀ s tail, rest = s :: tail → step state stack s tail = afterValue stack s) :
    run state stack rest = resume stack rest := by
  cases rest with
  | nil =>
      rw [run, hend]
      cases stack <;> rfl
  | cons s rest =>
      rw [run, hstep s rest rfl]
      cases stack <;> rfl

/-- A value that may be complete is, if no part of it follows. -/
theorem run_afterValue {state : State} {stack : List Frame} {rest : Symbols}
    (hstep : ∀ s tail, isEnd s → step state stack s tail = afterValue stack s)
    (hend : atEnd state stack = endOfValue stack) (hrest : Ends rest) :
    run state stack rest = resume stack rest := by
  refine run_eq_resume hend fun s tail hs => hstep s tail (hrest s ?_)
  rw [hs]
  rfl

/-- A number that may end does so before what ends a value. -/
theorem Finished.run_ends {state : State} {stack : List Frame} {rest : Symbols}
    (hstate : Finished state stack) (hrest : Ends rest) :
    run state stack rest = resume stack rest := by
  refine run_afterValue (fun s tail hs => ?_) hstate.atEnd_eq hrest
  obtain ⟨hdigit, hpoint, hlower, hupper⟩ := not_number_of_isEnd hs
  simp [hstate.step_eq s tail hdigit hpoint, afterDigits, hlower, hupper]

/-- The digits of a part that needs one or more are read in the state that waits for more. -/
theorem run_firstDigit {state more : State} {stack : List Frame} {digits : Symbols}
    (hdigits : Digits digits)
    (hfirst : ∀ s tail, isDigit s → step state stack s tail = .next more stack)
    (hmore : ∀ s tail, isDigit s → step more stack s tail = .next more stack)
    (rest : Symbols) : run state stack (digits ++ rest) = run more stack rest := by
  obtain ⟨hne, hall⟩ := hdigits
  cases digits with
  | nil => exact absurd rfl hne
  | cons d digits =>
      obtain ⟨hd, hall⟩ := List.forall_mem_cons.mp hall
      rw [List.cons_append, run_cons_next (hfirst d _ hd), run_digits hall hmore]

theorem run_exponentDigits {stack : List Frame} {rest : Symbols} (hrest : Ends rest) :
    run .exponentDigits stack rest = resume stack rest := by
  refine run_afterValue (fun s tail hs => ?_) rfl hrest
  simp [step, (not_number_of_isEnd hs).1]

/-- An exponent ends before what ends a value. -/
theorem run_exponent {stack : List Frame} {sign digits rest : Symbols} (hsign : Sign sign)
    (hdigits : Digits digits) (hrest : Ends rest) :
    run .exponent stack (sign ++ (digits ++ rest)) = resume stack rest := by
  have hmore : ∀ s tail, isDigit s →
      step .exponentDigits stack s tail = .next .exponentDigits stack :=
    fun s tail hs => by simp [step, hs]
  have hsigned : ∀ s, s = some '+' ∨ s = some '-' →
      run .exponent stack (s :: (digits ++ rest)) = resume stack rest := by
    intro s hs
    have hsign : step .exponent stack s (digits ++ rest) = .next .exponentSign stack := by
      simp [step, hs]
    rw [run_cons_next hsign, run_firstDigit hdigits (fun s tail hs => by simp [step, hs]) hmore,
      run_exponentDigits hrest]
  cases hsign with
  | plus => exact hsigned _ (.inl rfl)
  | minus => exact hsigned _ (.inr rfl)
  | absent =>
      have hfirst : ∀ s tail, isDigit s →
          step .exponent stack s tail = .next .exponentDigits stack := by
        intro s tail hs
        have hplus : s ≠ some '+' := by rintro rfl; exact absurd hs (by decide)
        have hminus : s ≠ some '-' := by rintro rfl; exact absurd hs (by decide)
        simp [step, hs, hplus, hminus]
      rw [List.nil_append, run_firstDigit hdigits hfirst hmore, run_exponentDigits hrest]

/-- An exponent or nothing may follow a number that may end. -/
theorem Finished.run_exponent {state : State} {stack : List Frame} {exponent rest : Symbols}
    (hstate : Finished state stack) (hexponent : Exponent exponent) (hrest : Ends rest) :
    run state stack (exponent ++ rest) = resume stack rest := by
  cases hexponent with
  | absent => exact hstate.run_ends hrest
  | @present letter sign digits hletter hsign hdigits =>
      have hstep : ∀ tail, step state stack letter tail = .next .exponent stack := by
        intro tail
        rcases hletter with rfl | rfl <;>
        · rw [hstate.step_eq _ tail (by decide) (by decide)]
          rfl
      rw [List.cons_append, run_cons_next (hstep _), List.append_assoc,
        Skip.run_exponent hsign hdigits hrest]

/-- The rest of a number behind its whole part. -/
theorem run_fraction {state : State} {stack : List Frame} {fraction exponent rest : Symbols}
    (hstate : Finished state stack)
    (hpoint : ∀ tail, step state stack (some '.') tail = .next .point stack)
    (hfraction : Fraction fraction) (hexponent : Exponent exponent) (hrest : Ends rest) :
    run state stack (fraction ++ (exponent ++ rest)) = resume stack rest := by
  cases hfraction with
  | absent => exact hstate.run_exponent hexponent hrest
  | present hdigits =>
      have hfirst : ∀ s tail, isDigit s → step .point stack s tail = .next .fraction stack :=
        fun s tail hs => by simp [step, hs]
      have hmore : ∀ s tail, isDigit s → step .fraction stack s tail = .next .fraction stack :=
        fun s tail hs => by simp [step, hs]
      rw [List.cons_append, run_cons_next (hpoint _), run_firstDigit hdigits hfirst hmore,
        (finished_fraction stack).run_exponent hexponent hrest]

/-- A number behind its sign, if the state starts one there. -/
theorem run_unsigned {state : State} {stack : List Frame} {text rest : Symbols}
    (hstate : ∀ s tail, isDigit s →
      step state stack s tail = .next (if s = some '0' then .zero else .whole) stack)
    (hnumber : Unsigned text) (hrest : Ends rest) :
    run state stack (text ++ rest) = resume stack rest := by
  obtain ⟨hwhole, hfraction, hexponent⟩ := hnumber
  rw [List.append_assoc, List.append_assoc]
  cases hwhole with
  | zero =>
      rw [List.singleton_append, run_cons_next (hstate _ _ (by decide))]
      exact run_fraction (finished_zero stack) (fun _ => rfl) hfraction hexponent hrest
  | digits hfirst hdigits =>
      obtain ⟨hfirstDigit, hmore⟩ := List.forall_mem_cons.mp hdigits.2
      rw [List.cons_append, run_cons_next (hstate _ _ hfirstDigit), if_neg hfirst,
        run_digits hmore fun s tail hs => by simp [step, hs]]
      exact run_fraction (finished_whole stack) (fun _ => rfl) hfraction hexponent hrest

/-! ## Strings -/

theorem run_hex_more {isKey : Bool} {missing : Nat} {stack : List Frame} {s : Option Char}
    (hs : (hexValue? s).isSome) (rest : Symbols) :
    run (.hex isKey (missing + 2)) stack (s :: rest) =
      run (.hex isKey (missing + 1)) stack rest :=
  run_cons_next (by simp [step, hs])

theorem run_hex_last {isKey : Bool} {stack : List Frame} {s : Option Char}
    (hs : (hexValue? s).isSome) (rest : Symbols) :
    run (.hex isKey 1) stack (s :: rest) = run (.string isKey) stack rest :=
  run_cons_next (by simp [step, hs])

/-- Four hexadecimal digits complete an escape. -/
theorem run_codeUnit {isKey : Bool} {stack : List Frame} {a b c d : Option Char} {n : Nat}
    (hunit : codeUnit? a b c d = some n) (rest : Symbols) :
    run (.hex isKey 4) stack (a :: b :: c :: d :: rest) = run (.string isKey) stack rest := by
  obtain ⟨_, _, _, _, ha, hb, hc, hd, _⟩ := codeUnit?_eq_some_iff.mp hunit
  rw [run_hex_more (Option.isSome_of_eq_some ha), run_hex_more (Option.isSome_of_eq_some hb),
    run_hex_more (Option.isSome_of_eq_some hc), run_hex_last (Option.isSome_of_eq_some hd)]

/-- The letters of short escapes are the same for texts that are passed over. -/
theorem step_escape_short {isKey : Bool} {stack : List Frame} {letter c : Char} {rest : Symbols}
    (hletter : shortEscape? letter = some c) :
    step (.escape isKey) stack (some letter) rest = .next (.string isKey) stack := by
  unfold shortEscape? at hletter
  split at hletter <;> first | contradiction | rfl

/-- A string ends at its own quote, whatever is escaped in it. -/
theorem run_string {body : Symbols} (hbody : Body body) (isKey : Bool) (stack : List Frame)
    (rest : Symbols) :
    run (.string isKey) stack (body ++ some '"' :: rest) =
      if isKey then run .colon stack rest else resume stack rest := by
  induction hbody with
  | nil =>
      cases isKey with
      | true => exact run_cons_next rfl
      | false => exact run_cons_close rfl
  | plain hquote hescape hcontrol _ ih =>
      exact (run_cons_next (by simp [step, hquote, hescape, hcontrol])).trans ih
  | short hletter _ ih =>
      refine (run_cons_next rfl).trans ?_
      exact (run_cons_next (step_escape_short hletter)).trans ih
  | unit hunit _ ih =>
      refine (run_cons_next rfl).trans ((run_cons_next rfl).trans ?_)
      exact (run_codeUnit hunit _).trans ih

/-! ## Lists and objects -/

/-- A part of a list or an object, which the machine passes over behind a comma and takes
for no closing bracket. -/
structure IsPart (frame : Frame) (stack : List Frame) (text : Symbols) : Prop where
  exists_start : ∃ lead s more, text = lead ++ s :: more ∧ Blank lead ∧ ¬isEnd s
  run_eq : ∀ tail, Ends tail → run frame.afterComma (frame :: stack) (text ++ tail) =
    run .ended (frame :: stack) tail

theorem isEnd_closer (frame : Frame) : isEnd frame.closer := by
  cases frame <;> decide

/-- A part ends where a comma follows, or the bracket that closes. -/
theorem ends_closing {frame : Frame} {gap : Symbols} (hgap : Blank gap) (texts : List Symbols)
    (rest : Symbols) : Ends (divided false texts ++ (gap ++ frame.closer :: rest)) :=
  ((ends_cons (isEnd_closer frame) rest).append_blank hgap).append_divided texts

theorem run_ended_blank {frame : Frame} {stack : List Frame} {gap : Symbols} (hgap : Blank gap)
    (rest : Symbols) :
    run .ended (frame :: stack) (gap ++ rest) = run .ended (frame :: stack) rest :=
  run_blank hgap (fun s tail hs => by simp [step, afterValue, hs]) rest

/-- Parts behind the first are passed over up to the bracket. -/
theorem run_divided {frame : Frame} {stack : List Frame} {texts : List Symbols} {gap : Symbols}
    (hgap : Blank gap) (htexts : ∀ text ∈ texts, IsPart frame stack text) (rest : Symbols) :
    run .ended (frame :: stack) (divided false texts ++ (gap ++ frame.closer :: rest)) =
      resume stack rest := by
  induction texts with
  | nil =>
      rw [divided, List.nil_append, run_ended_blank hgap]
      exact run_cons_close (by cases frame <;> rfl)
  | cons text texts ih =>
      obtain ⟨htext, htexts⟩ := List.forall_mem_cons.mp htexts
      have hcomma : ∀ tail, step .ended (frame :: stack) (some ',') tail =
          .next frame.afterComma (frame :: stack) := fun _ => rfl
      rw [divided, List.cons_append, run_cons_next (hcomma _), List.append_assoc,
        htext.run_eq _ (ends_closing hgap texts rest), ih htexts]

theorem step_afterComma_blank {frame : Frame} {stack : List Frame} {s : Option Char}
    (hs : isBlank s) (tail : Symbols) : step frame.afterComma (frame :: stack) s tail =
      .next frame.afterComma (frame :: stack) := by
  cases frame <;> simp [step, Frame.afterComma, startValue, startKey, hs]

/-- Just inside a bracket, what does not close it is passed over as it is behind a comma. -/
theorem run_opened_cons {frame : Frame} {stack : List Frame} {s : Option Char}
    (hblank : ¬isBlank s) (hcloser : s ≠ frame.closer) (rest : Symbols) :
    run .opened (frame :: stack) (s :: rest) =
      run frame.afterComma (frame :: stack) (s :: rest) := by
  rw [run, run]
  cases frame <;> simp only [step, hblank, hcloser, Frame.afterComma, Bool.false_eq_true,
    if_false]

/-- The first part stands directly behind the bracket. -/
theorem IsPart.run_opened {frame : Frame} {stack : List Frame} {text : Symbols}
    (htext : IsPart frame stack text) {tail : Symbols} (htail : Ends tail) :
    run .opened (frame :: stack) (text ++ tail) = run .ended (frame :: stack) tail := by
  rw [← htext.run_eq tail htail]
  obtain ⟨lead, s, more, rfl, hlead, hs⟩ := htext.exists_start
  have hcloser : s ≠ frame.closer := fun heq => hs (heq ▸ isEnd_closer frame)
  have hopened : ∀ s tail, isBlank s →
      step .opened (frame :: stack) s tail = .next .opened (frame :: stack) :=
    fun s tail hs => by simp [step, hs]
  rw [List.append_assoc, run_blank hlead hopened,
    run_blank hlead fun _ tail hs => step_afterComma_blank hs tail, List.cons_append,
    run_opened_cons (not_isBlank_of_not_isEnd hs) hcloser]

/-- What stands between brackets is passed over with them. -/
theorem run_bracket {frame : Frame} {stack : List Frame} {texts : List Symbols} {gap : Symbols}
    (hgap : Blank gap) (htexts : ∀ text ∈ texts, IsPart frame stack text) (rest : Symbols) :
    run .opened (frame :: stack) (divided true texts ++ (gap ++ frame.closer :: rest)) =
      resume stack rest := by
  cases texts with
  | nil =>
      rw [divided, List.nil_append,
        run_blank hgap fun s tail hs => by simp [step, hs]]
      exact run_cons_close (by cases frame <;> rfl)
  | cons text texts =>
      obtain ⟨htext, htexts⟩ := List.forall_mem_cons.mp htexts
      rw [divided, List.append_assoc,
        htext.run_opened (ends_closing hgap texts rest), run_divided hgap htexts]

/-! ## Values -/

/-- The machine passes over an item if it passes over its value. -/
theorem run_item {item : Item} {frame : Frame} {stack : List Frame}
    (hvalue : ∀ rest, Ends rest → run .value (frame :: stack) (item.value ++ rest) =
      resume (frame :: stack) rest) {tail : Symbols} (htail : Ends tail) :
    run .value (frame :: stack) (item.text ++ tail) = run .ended (frame :: stack) tail := by
  have hblank : ∀ s tail, isBlank s →
      step .value (frame :: stack) s tail = .next .value (frame :: stack) :=
    fun s tail hs => by simp [step, startValue, hs]
  rw [Item.text, List.append_assoc, run_blank item.blank_before hblank, List.append_assoc,
    hvalue _ (htail.append_blank item.blank_after)]
  exact run_ended_blank item.blank_after tail

/-- An element of a list is a part of it if its value is passed over. -/
theorem isPart_item {item : Item} {stack : List Frame} (hvalue : Value item.value)
    (hrun : ∀ rest, Ends rest → run .value (.list :: stack) (item.value ++ rest) =
      resume (.list :: stack) rest) : IsPart .list stack item.text where
  exists_start := by
    obtain ⟨s, more, hstart, hs⟩ := hvalue.exists_start
    exact ⟨item.before, s, more ++ item.after, by rw [Item.text, hstart]; rfl,
      item.blank_before, hs⟩
  run_eq _ htail := run_item hrun htail

/-- A member of an object is a part of it if its value is passed over. -/
theorem isPart_member {member : Member} {stack : List Frame}
    (hrun : ∀ rest, Ends rest → run .value (.object :: stack) (member.value ++ rest) =
      resume (.object :: stack) rest) : IsPart .object stack member.text where
  exists_start := ⟨member.lead, some '"', _, rfl, member.blank_lead, by decide⟩
  run_eq tail htail := by
    have hkey : ∀ s tail, isBlank s →
        step .key (.object :: stack) s tail = .next .key (.object :: stack) :=
      fun s tail hs => by simp [step, startKey, hs]
    have hcolon : ∀ s tail, isBlank s →
        step .colon (.object :: stack) s tail = .next .colon (.object :: stack) :=
      fun s tail hs => by simp [step, hs]
    calc
      run .key (.object :: stack) (member.text ++ tail) =
          run .key (.object :: stack) (some '"' :: (member.key ++ some '"' ::
            (member.gap ++ some ':' :: (member.toItem.text ++ tail)))) := by
        simp only [Member.text, List.append_assoc, List.cons_append]
        exact run_blank member.blank_lead hkey _
      _ = run .colon (.object :: stack)
            (member.gap ++ some ':' :: (member.toItem.text ++ tail)) :=
        (run_cons_next rfl).trans (run_string member.body_key true _ _)
      _ = run .value (.object :: stack) (member.toItem.text ++ tail) :=
        (run_blank member.blank_gap hcolon _).trans (run_cons_next rfl)
      _ = run .ended (.object :: stack) tail := run_item hrun htail

/-- The machine stops right behind a value, inside any brackets. -/
theorem run_value {text : Symbols} (hvalue : Value text) (stack : List Frame) {rest : Symbols}
    (hrest : Ends rest) : run .value stack (text ++ rest) = resume stack rest := by
  induction hvalue generalizing stack rest with
  | null => exact (run_cons_next rfl).trans (run_literal 'u' ['l', 'l'] stack rest)
  | true => exact (run_cons_next rfl).trans (run_literal 'r' ['u', 'e'] stack rest)
  | false => exact (run_cons_next rfl).trans (run_literal 'a' ['l', 's', 'e'] stack rest)
  | unsigned hnumber =>
      refine run_unsigned (fun s tail hs => ?_) hnumber hrest
      have hblank := not_isBlank_of_not_isEnd (not_isEnd_of_isDigit hs)
      simp [step, startValue, hs, hblank]
  | negative hnumber =>
      refine (run_cons_next rfl).trans (run_unsigned (fun s tail hs => ?_) hnumber hrest)
      simp [step, hs]
  | string hbody =>
      rw [stringText, List.cons_append, List.append_assoc]
      exact (run_cons_next rfl).trans (run_string hbody false stack rest)
  | @list items gap hgap hitems ih =>
      -- the items are passed over with one more bracket open
      have hparts : ∀ text ∈ items.map Item.text, IsPart .list stack text := by
        intro text htext
        obtain ⟨item, hitem, rfl⟩ := List.mem_map.mp htext
        exact isPart_item (hitems item hitem) fun rest hrest => ih item hitem _ hrest
      simp only [listText, List.cons_append, List.append_assoc, List.nil_append]
      exact (run_cons_next rfl).trans (run_bracket hgap hparts rest)
  | @object members gap hgap hmembers ih =>
      have hparts : ∀ text ∈ members.map Member.text, IsPart .object stack text := by
        intro text htext
        obtain ⟨member, hmember, rfl⟩ := List.mem_map.mp htext
        exact isPart_member fun rest hrest => ih member hmember _ hrest
      simp only [objectText, List.cons_append, List.append_assoc, List.nil_append]
      exact (run_cons_next rfl).trans (run_bracket hgap hparts rest)

/-- A value is passed over as a whole, together with the white space before it. -/
theorem value_append {text gap : Symbols} (hvalue : Value text) (hgap : Blank gap)
    {rest : Symbols} (hrest : Ends rest) : value (gap ++ (text ++ rest)) = .ok rest := by
  have hblank : ∀ s tail, isBlank s → step .value [] s tail = .next .value [] :=
    fun s tail hs => by simp [step, startValue, hs]
  exact (run_blank hgap hblank _).trans (run_value hvalue [] hrest)

end TimingReport.Json.Skip
