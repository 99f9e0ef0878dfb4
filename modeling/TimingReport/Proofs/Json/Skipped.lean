import Mathlib.Tactic.SplitIfs
import TimingReport.Proofs.Json.Accepted
import TimingReport.Proofs.Json.Brackets
import TimingReport.Proofs.Json.Skip

/-!
# What is passed over

The state machine accepts nothing but values: where it stops without a fault, it has taken white
space and one value of the grammar. What a bracket still needs is a part behind each comma and
the symbol that closes it.
-/

namespace TimingReport.Json.Skip

variable {state : State} {stack : List Frame} {frame : Frame} {c : Option Char}
  {s rest : Symbols}

/-! ## Strings -/

/-- The part of a string's escape that has been taken where it is still open. -/
inductive Begun (isKey : Bool) : State → Symbols → Prop
  | string : Begun isKey (.string isKey) []
  | escape : Begun isKey (.escape isKey) [some '\\']
  | hex {digits : Symbols} {missing : Nat} (hlength : digits.length + (missing + 1) = 4)
      (hdigits : ∀ d ∈ digits, (hexValue? d).isSome) :
      Begun isKey (.hex isKey (missing + 1)) (some '\\' :: some 'u' :: digits)

theorem Begun.unit (isKey : Bool) : Begun isKey (.hex isKey 4) [some '\\', some 'u'] :=
  @hex isKey [] 3 rfl (List.forall_mem_nil _)

/-- What is done behind the quote of a string. -/
def behindString (isKey : Bool) (stack : List Frame) (s : Symbols) : Except Fault Symbols :=
  if isKey then run .colon stack s else resume stack s

theorem exists_shortEscape {c : Option Char}
    (hc : [some '"', some '\\', some '/', some 'b', some 'f', some 'n', some 'r',
      some 't'].contains c) : ∃ letter d, c = some letter ∧ shortEscape? letter = some d := by
  simp only [List.contains_iff_mem, List.mem_cons, List.not_mem_nil, or_false] at hc
  rcases hc with rfl | rfl | rfl | rfl | rfl | rfl | rfl | rfl <;> exact ⟨_, _, rfl, rfl⟩

/-- A symbol of a string is its quote, or it goes on with a part of the string. -/
theorem Begun.step {isKey : Bool} {begun : Symbols} (hbegun : Begun isKey state begun)
    (hrun : run state stack (c :: s) = .ok rest) :
    (begun = [] ∧ c = some '"' ∧ behindString isKey stack s = .ok rest) ∨
      ∃ next more, Begun isKey next more ∧ run next stack s = .ok rest ∧
        ∀ body, Body (more ++ body) → Body (begun ++ c :: body) := by
  cases hbegun with
  | string =>
      by_cases hquote : c = some '"'
      · obtain rfl := hquote
        refine .inl ⟨rfl, rfl, ?_⟩
        cases isKey with
        | true => exact (run_cons_next rfl).symm.trans hrun
        | false => exact (run_cons_close rfl).symm.trans hrun
      · right
        rw [run, Skip.step, if_neg hquote] at hrun
        split_ifs at hrun with hescape hcontrol
        · exact ⟨_, _, .escape, hrun, fun body hbody => hescape ▸ hbody⟩
        · exact ⟨_, _, .string, hrun, fun body hbody => .plain hquote hescape hcontrol hbody⟩
  | escape =>
      right
      rw [run, Skip.step] at hrun
      split_ifs at hrun with hunit hshort
      · exact ⟨_, _, .unit isKey, hrun, fun body hbody => hunit ▸ hbody⟩
      · obtain ⟨letter, d, rfl, hletter⟩ := exists_shortEscape hshort
        exact ⟨_, _, .string, hrun, fun body hbody => .short hletter hbody⟩
  | @hex digits missing hlength hdigits =>
      right
      rw [run, Skip.step] at hrun
      split_ifs at hrun with hdigit hlast
      all_goals
        have hdigits : ∀ d ∈ digits ++ [c], (hexValue? d).isSome :=
          List.forall_mem_append.mpr ⟨hdigits, List.forall_mem_singleton.mpr hdigit⟩
        have hlengthNext : (digits ++ [c]).length = digits.length + 1 := List.length_append
      · refine ⟨_, _, .string, hrun, fun body hbody => ?_⟩
        have hunit := Body.of_digits (by omega) hdigits hbody
        simpa using hunit
      · obtain ⟨left, rfl⟩ : ∃ left, missing = left + 1 := ⟨missing - 1, by omega⟩
        refine ⟨_, _, .hex (by omega) hdigits, hrun, fun body hbody => ?_⟩
        simpa using hbody

/-- Where a string is taken, a quote follows what belongs to the grammar. -/
theorem body_of_run {isKey : Bool} {begun : Symbols} (hbegun : Begun isKey state begun)
    (hrun : run state stack s = .ok rest) :
    ∃ body tail, s = body ++ some '"' :: tail ∧ Body (begun ++ body) ∧
      behindString isKey stack tail = .ok rest := by
  induction s generalizing state begun with
  | nil =>
      rw [run] at hrun
      cases hbegun <;> contradiction
  | cons c s ih =>
      rcases hbegun.step hrun with ⟨rfl, rfl, hbehind⟩ | ⟨next, more, hmore, hrun, hbody⟩
      · exact ⟨[], s, rfl, .nil, hbehind⟩
      · obtain ⟨body, tail, rfl, hrest, hbehind⟩ := ih hmore hrun
        exact ⟨c :: body, tail, rfl, hbody body hrest, hbehind⟩

/-! ## Literals -/

theorem literal_of_run {first : Char} {more : List Char}
    (hrun : run (.literal (first :: more)) stack s = .ok rest) :
    ∃ tail, s = (first :: more).map some ++ tail ∧ resume stack tail = .ok rest := by
  induction more generalizing first s with
  | nil =>
      cases s with
      | nil => contradiction
      | cons c s =>
          by_cases hc : c = some first
          · have hclose : step (.literal [first]) stack c s = close stack := by simp [step, hc]
            exact ⟨s, by simp [hc], (run_cons_close hclose).symm.trans hrun⟩
          · rw [run, step, if_neg hc] at hrun
            contradiction
  | cons second more ih =>
      cases s with
      | nil => contradiction
      | cons c s =>
          rw [run, step] at hrun
          split_ifs at hrun with hc
          · obtain ⟨tail, rfl, hresume⟩ := ih hrun
            exact ⟨tail, by simp [hc], hresume⟩
          · simp

/-! ## Numbers -/

/-- Digits are taken as long as there are some, in a state that waits for more of them. -/
theorem digits_of_run (hstate : ∀ c tail, isDigit c → step state stack c tail = .next state stack)
    (hrun : run state stack s = .ok rest) :
    ∃ digits tail, s = digits ++ tail ∧ (∀ d ∈ digits, isDigit d) ∧ NoDigit tail ∧
      run state stack tail = .ok rest := by
  have hdigits : ∀ d ∈ s.takeWhile isDigit, isDigit d := fun d hd => List.mem_takeWhile_imp hd
  refine ⟨s.takeWhile isDigit, s.dropWhile isDigit, List.takeWhile_append_dropWhile.symm,
    hdigits, fun d hd => not_of_mem_head?_dropWhile hd, ?_⟩
  rwa [← run_digits hdigits hstate, List.takeWhile_append_dropWhile]

/-- Where a digit is needed, one is taken and all that follow. -/
theorem firstDigit_of_run {more : State}
    (hfirst : ∀ c tail, step state stack c tail =
      if isDigit c then .next more stack else .fault .invalidNumber)
    (hend : atEnd state stack = .error .invalidNumber)
    (hmore : ∀ c tail, isDigit c → step more stack c tail = .next more stack)
    (hrun : run state stack s = .ok rest) :
    ∃ digits tail, s = digits ++ tail ∧ Digits digits ∧ NoDigit tail ∧
      run more stack tail = .ok rest := by
  cases s with
  | nil =>
      rw [run, hend] at hrun
      contradiction
  | cons c s =>
      rw [run, hfirst] at hrun
      split_ifs at hrun with hdigit
      · obtain ⟨digits, tail, rfl, hdigits, htail, hrun⟩ := digits_of_run hmore hrun
        exact ⟨c :: digits, tail, rfl,
          ⟨List.cons_ne_nil _ _, List.forall_mem_cons.mpr ⟨hdigit, hdigits⟩⟩, htail, hrun⟩

theorem step_fraction (c : Option Char) (tail : Symbols) (hdigit : isDigit c) :
    step .fraction stack c tail = .next .fraction stack := by
  simp [step, hdigit]

theorem step_exponentDigits (c : Option Char) (tail : Symbols) (hdigit : isDigit c) :
    step .exponentDigits stack c tail = .next .exponentDigits stack := by
  simp [step, hdigit]

theorem step_whole (c : Option Char) (tail : Symbols) (hdigit : isDigit c) :
    step .whole stack c tail = .next .whole stack := by
  simp [step, hdigit]

theorem exponentSign_of_run (hrun : run .exponentSign stack s = .ok rest) :
    ∃ digits tail, s = digits ++ tail ∧ Digits digits ∧ resume stack tail = .ok rest := by
  obtain ⟨digits, tail, rfl, hdigits, htail, hrun⟩ := firstDigit_of_run
    (fun c tail => by simp [step]) rfl step_exponentDigits hrun
  refine ⟨digits, tail, rfl, hdigits, ?_⟩
  rwa [run_eq_resume rfl] at hrun
  intro c more hmore
  simp [step, htail c (by rw [hmore]; rfl)]

theorem sign_of_run (hrun : run .exponent stack s = .ok rest) :
    ∃ sign digits tail, s = sign ++ (digits ++ tail) ∧ Sign sign ∧ Digits digits ∧
      resume stack tail = .ok rest := by
  cases s with
  | nil => contradiction
  | cons c s =>
      by_cases hsign : c = some '+' ∨ c = some '-'
      · have hnext : step .exponent stack c s = .next .exponentSign stack := by simp [step, hsign]
        rw [run_cons_next hnext] at hrun
        obtain ⟨digits, tail, rfl, hdigits, hresume⟩ := exponentSign_of_run hrun
        rcases hsign with rfl | rfl
        · exact ⟨_, digits, tail, rfl, .plus, hdigits, hresume⟩
        · exact ⟨_, digits, tail, rfl, .minus, hdigits, hresume⟩
      · -- without a sign the digits begin at once
        have hsame : run .exponent stack (c :: s) = run .exponentSign stack (c :: s) := by
          rw [run, run, step, if_neg hsign, step]
        obtain ⟨digits, tail, hs, hdigits, hresume⟩ := exponentSign_of_run (hsame ▸ hrun)
        exact ⟨[], digits, tail, hs, .absent, hdigits, hresume⟩

/-- Behind the digits of a number there may be an exponent. -/
theorem exponent_of_run (hend : atEnd state stack = endOfValue stack)
    (hstep : ∀ c tail, s = c :: tail → step state stack c tail = afterDigits stack c)
    (hrun : run state stack s = .ok rest) :
    ∃ exponent tail, s = exponent ++ tail ∧ Exponent exponent ∧ resume stack tail = .ok rest := by
  by_cases hletter : ∃ c tail, s = c :: tail ∧ (c = some 'e' ∨ c = some 'E')
  · obtain ⟨c, tail, rfl, hletter⟩ := hletter
    have hnext : step state stack c tail = .next .exponent stack := by
      rw [hstep c tail rfl, afterDigits, if_pos hletter]
    rw [run_cons_next hnext] at hrun
    obtain ⟨sign, digits, tail, rfl, hsign, hdigits, hresume⟩ := sign_of_run hrun
    exact ⟨_, tail, by simp, .present hletter hsign hdigits, hresume⟩
  · refine ⟨[], s, rfl, .absent, ?_⟩
    rwa [← run_eq_resume hend]
    intro c tail hs
    rw [hstep c tail hs, afterDigits, if_neg fun hc => hletter ⟨c, tail, hs, hc⟩]

/-- Behind the whole part of a number there may be a fraction, too. -/
theorem fraction_of_run (hend : atEnd state stack = endOfValue stack)
    (hstep : ∀ c tail, s = c :: tail → step state stack c tail = afterWhole stack c)
    (hrun : run state stack s = .ok rest) :
    ∃ fraction exponent tail, s = fraction ++ (exponent ++ tail) ∧ Fraction fraction ∧
      Exponent exponent ∧ resume stack tail = .ok rest := by
  by_cases hpoint : ∃ tail, s = some '.' :: tail
  · obtain ⟨tail, rfl⟩ := hpoint
    have hnext : step state stack (some '.') tail = .next .point stack := hstep _ tail rfl
    rw [run_cons_next hnext] at hrun
    obtain ⟨digits, tail, rfl, hdigits, htail, hrun⟩ := firstDigit_of_run
      (fun c tail => by simp [step]) rfl step_fraction hrun
    obtain ⟨exponent, tail, rfl, hexponent, hresume⟩ := exponent_of_run rfl
      (fun c more hmore => by simp [step, htail c (by rw [hmore]; rfl)]) hrun
    exact ⟨_, exponent, tail, rfl, .present hdigits, hexponent, hresume⟩
  · have hdigits : ∀ c tail, s = c :: tail → step state stack c tail = afterDigits stack c := by
      intro c tail hs
      have hc : c ≠ some '.' := fun hc => hpoint ⟨tail, hc ▸ hs⟩
      rw [hstep c tail hs, afterWhole, if_neg hc]
    obtain ⟨exponent, tail, rfl, hexponent, hresume⟩ := exponent_of_run hend hdigits hrun
    exact ⟨[], exponent, tail, rfl, .absent, hexponent, hresume⟩

/-- Where a number begins, a number without a sign is taken. -/
theorem unsigned_of_run (hdigit : isDigit c)
    (hrun : run (if c = some '0' then .zero else .whole) stack s = .ok rest) :
    ∃ text tail, c :: s = text ++ tail ∧ Unsigned text ∧ resume stack tail = .ok rest := by
  split_ifs at hrun with hzero
  · have hno : NoDigit s := by
      intro d hd hdigit
      obtain ⟨tail, rfl⟩ := List.head?_eq_some_iff.mp hd
      simp [run, step, hdigit] at hrun
    obtain ⟨fraction, exponent, tail, rfl, hfraction, hexponent, hresume⟩ := fraction_of_run rfl
      (fun c more hmore => by simp [step, hno c (by rw [hmore]; rfl)]) hrun
    exact ⟨_, tail, by simp [hzero], .parts .zero hfraction hexponent, hresume⟩
  · obtain ⟨digits, tail, rfl, hdigits, htail, hrun⟩ := digits_of_run step_whole hrun
    obtain ⟨fraction, exponent, tail, rfl, hfraction, hexponent, hresume⟩ := fraction_of_run rfl
      (fun c more hmore => by simp [step, htail c (by rw [hmore]; rfl)]) hrun
    have hwhole : Whole (c :: digits) :=
      .digits hzero ⟨List.cons_ne_nil _ _, List.forall_mem_cons.mpr ⟨hdigit, hdigits⟩⟩
    exact ⟨_, tail, by simp, .parts hwhole hfraction hexponent, hresume⟩

theorem minus_of_run (hrun : run .minus stack s = .ok rest) :
    ∃ text tail, s = text ++ tail ∧ Unsigned text ∧ resume stack tail = .ok rest := by
  cases s with
  | nil => contradiction
  | cons c s =>
      rw [run, step] at hrun
      by_cases hdigit : isDigit c
      · rw [if_pos hdigit] at hrun
        exact unsigned_of_run hdigit hrun
      · rw [if_neg hdigit] at hrun
        contradiction

/-! ## Lists and objects -/

/-- Wherever a value is needed in front of the symbols, one is taken. -/
def Takes (s : Symbols) : Prop :=
  ∀ {stack : List Frame} {rest : Symbols}, run .value stack s = .ok rest →
    ∃ gap value tail, s = gap ++ (value ++ tail) ∧ Blank gap ∧ Value value ∧
      resume stack tail = .ok rest

/-- White space in front is left out, in a state that waits for the next part. -/
theorem blank_of_run (hstate : ∀ c tail, isBlank c → step state stack c tail = .next state stack)
    (hrun : run state stack s = .ok rest) :
    ∃ gap tail, s = gap ++ tail ∧ Blank gap ∧ (∀ c ∈ tail.head?, ¬isBlank c) ∧
      run state stack tail = .ok rest := by
  have hgap : Blank (s.takeWhile isBlank) := fun c hc => List.mem_takeWhile_imp hc
  refine ⟨_, s.dropWhile isBlank, List.takeWhile_append_dropWhile.symm, hgap,
    fun c hc => not_of_mem_head?_dropWhile hc, ?_⟩
  rwa [← run_blank hgap hstate, List.takeWhile_append_dropWhile]

/-- A member is taken up to the white space behind its value. -/
theorem member_of_run (htakes : ∀ t : Symbols, t.length ≤ s.length → Takes t)
    (hrun : run .key (.object :: stack) s = .ok rest) :
    ∃ front tail, s = front ++ tail ∧ Frame.object.IsFront front ∧
      run .ended (.object :: stack) tail = .ok rest := by
  obtain ⟨lead, tail, rfl, hlead, hblank, hrun⟩ :=
    blank_of_run (fun c tail hc => by simp [step, startKey, hc]) hrun
  cases tail with
  | nil => contradiction
  | cons c tail =>
      rw [run, step, startKey, if_neg (hblank c rfl)] at hrun
      split_ifs at hrun with hquote
      · obtain ⟨key, tail, rfl, hkey, hrun⟩ := body_of_run .string hrun
        obtain ⟨gap, tail, rfl, hgap, hblank, hrun⟩ :=
          blank_of_run (fun c tail hc => by simp [step, hc]) hrun
        cases tail with
        | nil => contradiction
        | cons d tail =>
            rw [run, step, if_neg (hblank d rfl)] at hrun
            split_ifs at hrun with hcolon
            · obtain ⟨before, value, tail, rfl, hbefore, hvalue, hrun⟩ :=
                htakes tail (by simp; omega) hrun
              exact ⟨_, tail, by simp [hquote, hcolon],
                isFront_member hlead hkey hgap hbefore hvalue, hrun⟩

/-- Behind a comma a part is taken. -/
theorem part_of_run (htakes : ∀ t : Symbols, t.length ≤ s.length → Takes t)
    (hrun : run frame.afterComma (frame :: stack) s = .ok rest) :
    ∃ front tail, s = front ++ tail ∧ frame.IsFront front ∧
      run .ended (frame :: stack) tail = .ok rest := by
  cases frame with
  | list =>
      obtain ⟨before, value, tail, rfl, hbefore, hvalue, hrun⟩ := htakes s (Nat.le_refl _) hrun
      exact ⟨_, tail, by simp, isFront_item hbefore hvalue, hrun⟩
  | object => exact member_of_run htakes hrun

/-- Behind a part, more parts are taken with a comma in front of each, and then the bracket is
closed. -/
theorem remains_of_run (htakes : ∀ t : Symbols, t.length ≤ s.length → Takes t)
    (hrun : run .ended (frame :: stack) s = .ok rest) :
    ∃ tail, frame.Remains false s tail ∧ resume stack tail = .ok rest := by
  induction hlength : s.length using Nat.strongRecOn generalizing s with
  | ind n ih =>
    obtain ⟨gap, tail, rfl, hgap, hblank, hrun⟩ :=
      blank_of_run (fun c tail hc => by simp [step, afterValue, hc]) hrun
    cases tail with
    | nil => contradiction
    | cons c tail =>
        by_cases hcomma : c = some ','
        · subst hcomma
          have hnext : step .ended (frame :: stack) (some ',') tail =
              .next frame.afterComma (frame :: stack) := rfl
          rw [run_cons_next hnext] at hrun
          obtain ⟨front, tail, rfl, hfront, hrun⟩ :=
            part_of_run (fun t ht => htakes t (by simp; omega)) hrun
          obtain ⟨left, hremains, hresume⟩ :=
            ih tail.length (by simp at hlength; omega) (fun t ht => htakes t (by simp; omega)) hrun
              rfl
          exact ⟨left, .next hgap hfront hremains, hresume⟩
        · by_cases hcloser : c = frame.closer
          · subst hcloser
            rw [run_cons_close (by cases frame <;> rfl)] at hrun
            exact ⟨tail, .closed hgap, hrun⟩
          · rw [run, step, afterValue, if_neg (hblank c rfl), if_neg hcomma, if_neg hcloser]
              at hrun
            contradiction

/-- Just inside a bracket the first part is taken, or the bracket is closed at once. -/
theorem remains_of_run_opened (htakes : ∀ t : Symbols, t.length ≤ s.length → Takes t)
    (hrun : run .opened (frame :: stack) s = .ok rest) :
    ∃ tail, frame.Remains true s tail ∧ resume stack tail = .ok rest := by
  obtain ⟨gap, tail, rfl, hgap, hblank, hrun⟩ :=
    blank_of_run (fun c tail hc => by simp [step, hc]) hrun
  by_cases hcloser : tail.head? = some frame.closer
  · obtain ⟨tail, rfl⟩ := List.head?_eq_some_iff.mp hcloser
    rw [run_cons_close (by cases frame <;> rfl)] at hrun
    exact ⟨tail, .closed hgap, hrun⟩
  · -- what is no closing bracket is taken as it is behind a comma
    have hafter : run frame.afterComma (frame :: stack) (gap ++ tail) = .ok rest := by
      rw [run_blank hgap fun c more hc => step_afterComma_blank hc more]
      cases tail with
      | nil => cases frame <;> contradiction
      | cons c tail => rwa [run_opened_cons (hblank c rfl) (fun hc => hcloser (hc ▸ rfl))] at hrun
    obtain ⟨front, tail, heq, hfront, hrun⟩ := part_of_run htakes hafter
    obtain ⟨left, hremains, hresume⟩ :=
      remains_of_run (fun t ht => htakes t (by rw [heq]; simp; omega)) hrun
    exact ⟨left, heq ▸ .first hfront hremains, hresume⟩

/-! ## Values -/

/-- What the first symbol of a value leads to is the rest of a value. -/
theorem value_of_start {c : Option Char} (htakes : ∀ t : Symbols, t.length ≤ s.length → Takes t)
    (hblank : ¬isBlank c) (hrun : run .value stack (c :: s) = .ok rest) :
    ∃ value tail, c :: s = value ++ tail ∧ Value value ∧ resume stack tail = .ok rest := by
  have hbracket : ∀ frame : Frame, run .opened (frame :: stack) s = .ok rest →
      ∃ value tail, frame.opener :: s = value ++ tail ∧ Value value ∧
        resume stack tail = .ok rest := by
    intro frame hrun
    obtain ⟨tail, hremains, hresume⟩ := remains_of_run_opened htakes hrun
    obtain ⟨value, heq, hvalue⟩ := hremains.exists_value
    exact ⟨value, tail, heq, hvalue, hresume⟩
  have hliteral : ∀ {first second : Char} {more : List Char},
      Value ((first :: second :: more).map some) →
        run (.literal (second :: more)) stack s = .ok rest → ∃ value tail,
          some first :: s = value ++ tail ∧ Value value ∧ resume stack tail = .ok rest := by
    intro first second more hvalue hrun
    obtain ⟨tail, rfl, hresume⟩ := literal_of_run hrun
    exact ⟨_, tail, rfl, hvalue, hresume⟩
  rw [run, step] at hrun
  generalize hstep : startValue stack c = next at hrun
  rw [startValue.eq_def, if_neg hblank] at hstep
  by_cases hdigit : isDigit c
  · rw [if_pos hdigit] at hstep
    subst hstep
    obtain ⟨value, tail, heq, hvalue, hresume⟩ := unsigned_of_run hdigit hrun
    exact ⟨value, tail, heq, .unsigned hvalue, hresume⟩
  · rw [if_neg hdigit] at hstep
    split at hstep
    all_goals subst hstep
    · exact hliteral .null hrun
    · exact hliteral .true hrun
    · exact hliteral .false hrun
    · obtain ⟨value, tail, rfl, hvalue, hresume⟩ := minus_of_run hrun
      exact ⟨_, tail, rfl, .negative hvalue, hresume⟩
    · obtain ⟨body, tail, rfl, hbody, hresume⟩ := body_of_run .string hrun
      exact ⟨stringText body, tail, by simp [stringText], .string hbody, hresume⟩
    · exact hbracket .list hrun
    · exact hbracket .object hrun
    · contradiction

/-- Wherever a value is needed, white space and one value are taken. -/
theorem takes (s : Symbols) : Takes s := by
  induction hlength : s.length using Nat.strongRecOn generalizing s with
  | ind n ih =>
    intro stack rest hrun
    obtain ⟨gap, tail, rfl, hgap, hblank, hrun⟩ :=
      blank_of_run (fun c tail hc => by simp [step, startValue, hc]) hrun
    cases tail with
    | nil => contradiction
    | cons c tail =>
        have htakes : ∀ t : Symbols, t.length ≤ tail.length → Takes t :=
          fun t ht => ih t.length (by simp at hlength; omega) t rfl
        obtain ⟨value, left, heq, hvalue, hresume⟩ := value_of_start htakes (hblank c rfl) hrun
        exact ⟨gap, value, left, by rw [heq], hgap, hvalue, hresume⟩

/-- What is passed over is white space and a value of the grammar. -/
theorem value_of_value (hskip : value s = .ok rest) :
    ∃ gap text, s = gap ++ (text ++ rest) ∧ Blank gap ∧ Value text := by
  obtain ⟨gap, text, tail, rfl, hgap, htext, hresume⟩ := takes s hskip
  obtain rfl := Except.ok.inj hresume
  exact ⟨gap, text, rfl, hgap, htext⟩

end TimingReport.Json.Skip
