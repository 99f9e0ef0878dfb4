import Mathlib.Data.List.TakeWhile
import Mathlib.Tactic.SplitIfs
import TimingReport.Proofs.Json.Numbers
import TimingReport.Proofs.Json.Strings
import TimingReport.Proofs.Outcome

/-!
# What readers of parts take

A reader that succeeds has taken a part of the grammar: a string up to its quote, the characters
of a literal, or a number. So whatever is read was written as the grammar says.
-/

namespace TimingReport.Json

variable {s rest digits : Symbols}

/-! ## Strings -/

/-- Four hexadecimal digits complete the escape of a code unit. -/
theorem Body.of_digits (hlength : digits.length = 4)
    (hdigits : ∀ d ∈ digits, (hexValue? d).isSome) (hrest : Body rest) :
    Body (some '\\' :: some 'u' :: (digits ++ rest)) := by
  match digits, hlength with
  | [a, b, c, d], _ =>
      simp only [List.forall_mem_cons, Option.isSome_iff_exists] at hdigits
      obtain ⟨⟨i, ha⟩, ⟨j, hb⟩, ⟨k, hc⟩, ⟨l, hd⟩, -⟩ := hdigits
      exact .unit (codeUnit?_eq_some_iff.mpr ⟨i, j, k, l, ha, hb, hc, hd, rfl⟩) hrest

/-- The part of an escape that has been read where it is still open. -/
inductive Begun : Open → Symbols → Prop
  | nothing : Begun .nothing []
  | escape : Begun .escape [some '\\']
  | hex {lead : Option Nat} {value : Nat} {digits : Symbols} (hlength : digits.length < 4)
      (hdigits : ∀ d ∈ digits, (hexValue? d).isSome) :
      Begun (.hex lead digits.length value) (some '\\' :: some 'u' :: digits)
  | pairEscape {lead : Nat} : Begun (.pairEscape lead) []
  | pairLetter {lead : Nat} : Begun (.pairLetter lead) [some '\\']

theorem Begun.unit (lead : Option Nat) :
    Begun (.hex lead 0 0) [some '\\', some 'u'] :=
  @hex lead 0 [] (by decide) (List.forall_mem_nil _)

theorem Begun.of_closeUnit {lead : Option Nat} {unit : Nat} {found : Option Char} {still : Open}
    (hclose : closeUnit lead unit = .ok (found, still)) : Begun still [] := by
  unfold closeUnit at hclose
  split at hclose
  · split_ifs at hclose
    · cases hclose
      exact .pairEscape
    · cases hclose
      exact .nothing
  · split_ifs at hclose
    cases hclose
    exact .nothing

variable {read : List (Option Char)} {still : Open} {begun : Symbols} {c : Option Char}
  {text : String}

/-- A digit of a code unit goes on with its escape or completes it. -/
theorem Begun.hex_step {lead : Option Nat} {value : Nat} (hlength : digits.length < 4)
    (hdigits : ∀ d ∈ digits, (hexValue? d).isSome)
    (hread : readText read (.hex lead digits.length value) (c :: s) = .ok (text, rest)) :
    ∃ read still more, Begun still more ∧ readText read still s = .ok (text, rest) ∧
      ∀ body, Body (more ++ body) → Body (some '\\' :: some 'u' :: digits ++ c :: body) := by
  rw [readText] at hread
  split at hread
  next => contradiction
  next digit hdigit =>
    have hdigits : ∀ d ∈ digits ++ [c], (hexValue? d).isSome := by
      refine List.forall_mem_append.mpr ⟨hdigits, List.forall_mem_singleton.mpr ?_⟩
      exact Option.isSome_of_eq_some hdigit
    have hlengthNext : (digits ++ [c]).length = digits.length + 1 := List.length_append
    dsimp only at hread
    split_ifs at hread with hmore
    · rw [← hlengthNext] at hread
      refine ⟨_, _, _, .hex (by omega) hdigits, hread, fun body hbody => ?_⟩
      simpa using hbody
    · have hcomplete : ∀ body, Body body →
          Body (some '\\' :: some 'u' :: digits ++ c :: body) := by
        intro body hbody
        have hunit := Body.of_digits (by omega) hdigits hbody
        simpa using hunit
      split at hread
      next => contradiction
      next hclose => exact ⟨_, _, [], .of_closeUnit hclose, hread, hcomplete⟩
      next hclose => exact ⟨_, _, [], .of_closeUnit hclose, hread, hcomplete⟩

/-- A symbol of a string is its quote, or it goes on with a part of the string. -/
theorem Begun.step (hbegun : Begun still begun)
    (hread : readText read still (c :: s) = .ok (text, rest)) :
    (begun = [] ∧ c = some '"' ∧ rest = s) ∨
      ∃ read still more, Begun still more ∧ readText read still s = .ok (text, rest) ∧
        ∀ body, Body (more ++ body) → Body (begun ++ c :: body) := by
  cases hbegun with
  | nothing =>
      rw [readText] at hread
      split_ifs at hread with hquote hescape hcontrol
      · split at hread
        next =>
          obtain ⟨-, rfl⟩ := Prod.mk.inj (Except.ok.inj hread)
          exact .inl ⟨rfl, hquote, rfl⟩
        next => contradiction
      · exact .inr ⟨_, _, _, .escape, hread, fun body hbody => hescape ▸ hbody⟩
      · exact .inr ⟨_, _, _, .nothing, hread, fun body hbody =>
          .plain hquote hescape hcontrol hbody⟩
  | escape =>
      rw [readText] at hread
      split_ifs at hread with hunit
      · exact .inr ⟨_, _, _, .unit none, hread, fun body hbody => hunit ▸ hbody⟩
      · split at hread
        next letter hletter =>
          obtain ⟨d, rfl, hshort⟩ := Option.bind_eq_some_iff.mp hletter
          exact .inr ⟨_, _, _, .nothing, hread, fun body hbody => .short hshort hbody⟩
        next => contradiction
  | hex hlength hdigits => exact .inr (hex_step hlength hdigits hread)
  | pairEscape =>
      rw [readText] at hread
      split_ifs at hread with hescape
      exact .inr ⟨_, _, _, .pairLetter, hread, fun body hbody => hescape ▸ hbody⟩
  | pairLetter =>
      rw [readText] at hread
      split_ifs at hread with hunit
      exact .inr ⟨_, _, _, .unit _, hread, fun body hbody => hunit ▸ hbody⟩

/-- A string is read up to a quote, and what stands before it belongs to the grammar. -/
theorem body_of_readText (hbegun : Begun still begun)
    (hread : readText read still s = .ok (text, rest)) :
    ∃ body, s = body ++ some '"' :: rest ∧ Body (begun ++ body) := by
  induction s generalizing read still begun with
  | nil =>
      rw [readText.eq_def] at hread
      contradiction
  | cons c s ih =>
      rcases hbegun.step hread with ⟨rfl, rfl, rfl⟩ | ⟨read', still', more, hmore, hread, hbody⟩
      · exact ⟨[], rfl, .nil⟩
      · obtain ⟨body, rfl, hrest⟩ := ih hmore hread
        exact ⟨c :: body, rfl, hbody body hrest⟩

/-- Whatever is read as a string spells what is read, and a quote follows it. -/
theorem spells_of_readString (hread : readString s = .ok (text, rest)) :
    ∃ body, s = body ++ some '"' :: rest ∧ Spells body text.toList := by
  obtain ⟨body, rfl, hbody⟩ := body_of_readText .nothing hread
  exact ⟨body, rfl, ((readString_eq_ok_iff hbody).mp hread).2⟩

/-! ## Literals -/

theorem eq_append_of_readLiteral {literal : List Char}
    (hread : readLiteral literal s = .ok rest) : s = literal.map some ++ rest := by
  induction literal generalizing s with
  | nil => exact Except.ok.inj hread
  | cons c literal ih =>
      cases s with
      | nil => contradiction
      | cons d s =>
          rw [readLiteral] at hread
          split_ifs at hread with hd
          rw [hd, ih hread]
          rfl

/-! ## Numbers -/

theorem not_of_mem_head?_dropWhile {α : Type} {p : α → Bool} {l : List α} {a : α}
    (ha : a ∈ (l.dropWhile p).head?) : ¬p a := by
  have hnot := List.head?_dropWhile_not p l
  rw [ha] at hnot
  simpa using hnot

theorem digits_of_spanDigits {values : List Nat} (hspan : spanDigits s = (values, rest)) :
    ∃ digits, s = digits ++ rest ∧ (∀ d ∈ digits, isDigit d) ∧
      values = digits.map digitValue := by
  obtain ⟨rfl, rfl⟩ := Prod.mk.inj hspan
  refine ⟨s.takeWhile isDigit, List.takeWhile_append_dropWhile.symm, ?_, rfl⟩
  intro d hd
  exact List.mem_takeWhile_imp hd

/-- There is a digit if there is the value of one. -/
theorem digits_of_not_isEmpty {values : List Nat} (hspan : spanDigits s = (values, rest))
    (hsome : ¬values.isEmpty) : ∃ digits, s = digits ++ rest ∧ Digits digits := by
  obtain ⟨digits, hs, hdigits, rfl⟩ := digits_of_spanDigits hspan
  refine ⟨digits, hs, ?_, hdigits⟩
  rintro rfl
  exact hsome rfl

variable {positive : Bool} {count dropped : Nat} {n : Number}

theorem digits_of_readExponent {start : Int}
    (hread : readExponent positive count start s = .ok (n, rest)) :
    ∃ sign digits, s = sign ++ (digits ++ rest) ∧ Sign sign ∧ Digits digits := by
  unfold readExponent at hread
  split at hread
  next up t hsign =>
    have hsigned : ∃ sign, s = sign ++ t ∧ Sign sign := by
      unfold readSign at hsign
      split at hsign
      all_goals obtain ⟨-, rfl⟩ := Prod.mk.inj hsign
      · exact ⟨_, rfl, .plus⟩
      · exact ⟨_, rfl, .minus⟩
      · exact ⟨[], rfl, .absent⟩
    obtain ⟨sign, hs, hsign⟩ := hsigned
    split at hread
    next values left hspan =>
      dsimp only at hread
      split at hread
      next => contradiction
      next hempty =>
        obtain ⟨digits, ht, hdigits⟩ := digits_of_not_isEmpty hspan hempty
        have hrest : left = rest := by
          split at hread
          · split at hread
            · contradiction
            · exact (Prod.mk.inj (Except.ok.inj hread)).2
          · obtain ⟨x, -, hread⟩ := Outcome.bind_eq_ok_iff.mp hread
            exact (Prod.mk.inj (Except.ok.inj hread)).2
        exact ⟨sign, digits, by rw [hs, ht, hrest], hsign, hdigits⟩

theorem Exponent.of_readExponent {start : Int} {letter : Option Char}
    (hletter : letter = some 'e' ∨ letter = some 'E')
    (hread : readExponent positive count start s = .ok (n, rest)) :
    ∃ exponent, letter :: s = exponent ++ rest ∧ Exponent exponent := by
  obtain ⟨sign, digits, rfl, hsign, hdigits⟩ := digits_of_readExponent hread
  exact ⟨_, by simp, .present hletter hsign hdigits⟩

theorem exponent_of_readScale {start : Int}
    (hread : readScale positive count start s = .ok (n, rest)) :
    ∃ exponent, s = exponent ++ rest ∧ Exponent exponent := by
  unfold readScale at hread
  split at hread
  · exact Exponent.of_readExponent (.inl rfl) hread
  · exact Exponent.of_readExponent (.inr rfl) hread
  · obtain ⟨x, -, hread⟩ := Outcome.map_eq_ok_iff.mp hread
    obtain ⟨-, rfl⟩ := Prod.mk.inj hread
    exact ⟨[], rfl, .absent⟩

theorem fraction_of_readFraction (hread : readFraction positive count dropped s = .ok (n, rest)) :
    ∃ fraction exponent, some '.' :: s = fraction ++ (exponent ++ rest) ∧ Fraction fraction ∧
      Exponent exponent := by
  unfold readFraction at hread
  split at hread
  next values left hspan =>
    split_ifs at hread with hempty
    obtain ⟨digits, rfl, hdigits⟩ := digits_of_not_isEmpty hspan hempty
    obtain ⟨exponent, rfl, hexponent⟩ := exponent_of_readScale hread
    exact ⟨_, exponent, rfl, .present hdigits, hexponent⟩

theorem parts_of_readTail (hread : readTail positive count dropped s = .ok (n, rest)) :
    ∃ fraction exponent, s = fraction ++ (exponent ++ rest) ∧ Fraction fraction ∧
      Exponent exponent := by
  have hwhole : ∀ exponent, s = exponent ++ rest → Exponent exponent → ∃ fraction exponent,
      s = fraction ++ (exponent ++ rest) ∧ Fraction fraction ∧ Exponent exponent :=
    fun exponent hs hexponent => ⟨[], exponent, hs, .absent, hexponent⟩
  unfold readTail at hread
  split at hread
  · exact fraction_of_readFraction hread
  · obtain ⟨exponent, hs, hexponent⟩ := Exponent.of_readExponent (.inl rfl) hread
    exact hwhole exponent hs hexponent
  · obtain ⟨exponent, hs, hexponent⟩ := Exponent.of_readExponent (.inr rfl) hread
    exact hwhole exponent hs hexponent
  · refine hwhole [] ?_ .absent
    split_ifs at hread
    · exact (Prod.mk.inj (Except.ok.inj hread)).2
    · obtain ⟨x, -, hread⟩ := Outcome.map_eq_ok_iff.mp hread
      exact (Prod.mk.inj hread).2

theorem unsigned_of_readUnsigned (hread : readUnsigned positive s = .ok (n, rest)) :
    ∃ text, s = text ++ rest ∧ Unsigned text := by
  -- what stands behind the whole part is a fraction and an exponent
  have hparts : ∀ {whole s count dropped}, Whole whole →
      readTail positive count dropped s = .ok (n, rest) →
      ∃ text, whole ++ s = text ++ rest ∧ Unsigned text := by
    intro whole s count dropped hwhole hread
    obtain ⟨fraction, exponent, rfl, hfraction, hexponent⟩ := parts_of_readTail hread
    exact ⟨_, by simp, .parts hwhole hfraction hexponent⟩
  unfold readUnsigned at hread
  split at hread
  next => contradiction
  next tail =>
    split at hread
    next =>
      split_ifs at hread
      exact hparts .zero hread
    next => exact hparts .zero hread
  next d tail hzero =>
    split_ifs at hread with hdigit
    split at hread
    next values left hspan =>
      obtain ⟨digits, hs, hdigits, rfl⟩ := digits_of_spanDigits hspan
      cases digits with
      | nil => simp [spanDigits, hdigit] at hspan
      | cons first digits =>
          obtain ⟨rfl, rfl⟩ := List.cons.inj hs
          exact hparts (.digits hzero ⟨List.cons_ne_nil _ _, hdigits⟩) hread

/-- Whatever is read as a number is one of the grammar. -/
theorem value_of_readNumber (hread : readNumber s = .ok (n, rest)) :
    ∃ text, s = text ++ rest ∧ Value text := by
  unfold readNumber at hread
  split at hread
  next s =>
    obtain ⟨text, rfl, htext⟩ := unsigned_of_readUnsigned hread
    exact ⟨some '-' :: text, rfl, .negative htext⟩
  next =>
    obtain ⟨text, rfl, htext⟩ := unsigned_of_readUnsigned hread
    exact ⟨text, rfl, .unsigned htext⟩

end TimingReport.Json
