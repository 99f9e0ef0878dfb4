import TimingReport.Proofs.Json.Grammar

/-!
# Reading strings

A string is read up to its own quote. What is read depends on the symbols between the
quotes alone, and it is the text that they spell.
-/

namespace TimingReport.Json

variable {read : List (Option Char)} {rest : Symbols}

/-! ## Single steps -/

@[simp] theorem push_text (c : Char) (read : Symbols) : push c read = some c :: read := rfl

@[simp] theorem Medium.characters?_text (s : Symbols) :
    Medium.characters? s = Text.Utf8.characters? s := rfl

theorem readText_plain [Medium] {s : Option Char} (hquote : s ≠ some '"') (hescape : s ≠ some '\\')
    (hcontrol : ¬isControl s) :
    readText read .nothing (s :: rest) = readText (s :: read) .nothing rest := by
  rw [readText, if_neg hquote, if_neg hescape, if_neg hcontrol]

/-- A code unit is no short escape. -/
theorem ne_unit_of_shortEscape? {letter c : Char} (hletter : shortEscape? letter = some c) :
    letter ≠ 'u' := by
  rintro rfl
  cases hletter

theorem readText_short {letter c : Char} (hletter : shortEscape? letter = some c) :
    readText read .nothing (some '\\' :: some letter :: rest) =
      readText (some c :: read) .nothing rest := by
  simp [readText, ne_unit_of_shortEscape? hletter, hletter]

/-- Four digits make a code unit, which may complete a character. -/
theorem readText_unit {a b c d : Option Char} {n : Nat} (hunit : codeUnit? a b c d = some n)
    (lead : Option Nat) :
    readText read (.hex lead 0 0) (a :: b :: c :: d :: rest) =
      match closeUnit lead n with
      | .error fault => .error fault
      | .ok (some char, still) => readText (some char :: read) still rest
      | .ok (none, still) => readText read still rest := by
  obtain ⟨i, j, k, l, ha, hb, hc, hd, rfl⟩ := codeUnit?_eq_some_iff.mp hunit
  cases hclose : closeUnit lead (((i * 16 + j) * 16 + k) * 16 + l) with
  | error fault => simp [readText, ha, hb, hc, hd, hclose]
  | ok closed =>
      obtain ⟨_ | char, still⟩ := closed
      all_goals simp [readText, ha, hb, hc, hd, hclose]

/-- What may be open where an escape begins: nothing, or a pair of surrogates. -/
inductive Between : Open → Option Nat → Prop
  | nothing : Between .nothing none
  | pair (lead : Nat) : Between (.pairEscape lead) (some lead)

theorem Between.readText_unit {still : Open} {lead : Option Nat} (hstill : Between still lead) :
    readText read still (some '\\' :: some 'u' :: rest) = readText read (.hex lead 0 0) rest := by
  cases hstill <;> simp [readText]

/-! ## Complete code units -/

theorem closeUnit_char {n : Nat} (hlead : ¬isLeading n) (htrail : ¬isTrailing n) :
    closeUnit none n = .ok (some (Char.ofNat n), .nothing) := by
  simp [closeUnit, hlead, htrail]

theorem closeUnit_leading {n : Nat} (hlead : isLeading n) :
    closeUnit none n = .ok (none, .pairEscape n) := by
  have htrail : ¬isTrailing n := by
    simp only [isLeading, isTrailing, Bool.and_eq_true, decide_eq_true_eq] at hlead ⊢
    omega
  simp [closeUnit, hlead, htrail]

theorem closeUnit_trailing {n : Nat} (htrail : isTrailing n) (lead : Nat) :
    closeUnit (some lead) n = .ok (some (pairedChar lead n), .nothing) := by
  simp [closeUnit, htrail]

theorem closeUnit_lone {n : Nat} (htrail : isTrailing n) :
    closeUnit none n = .error .loneSurrogate := by
  simp [closeUnit, htrail]

theorem closeUnit_unpaired {n : Nat} (htrail : ¬isTrailing n) (lead : Nat) :
    closeUnit (some lead) n = .error .loneSurrogate := by
  simp [closeUnit, htrail]

/-! ## The text that is spelled -/

theorem characters?_eq_some_iff {symbols : List (Option Char)} {text : List Char} :
    Text.Utf8.characters? symbols = some text ↔ symbols = text.map some := by
  constructor
  · intro hcharacters
    unfold Text.Utf8.characters? at hcharacters
    split at hcharacters
    next hall =>
      obtain rfl := Option.some.inj hcharacters
      induction symbols with
      | nil => rfl
      | cons s symbols ih =>
          obtain ⟨hs, hall⟩ := Bool.and_eq_true_iff.mp hall
          obtain ⟨c, rfl⟩ := Option.isSome_iff_exists.mp hs
          exact congrArg (some c :: ·) (ih hall rfl)
    next => contradiction
  · rintro rfl
    simp [Text.Utf8.characters?, List.filterMap_map]

/-- The text spelled by the rest of a string is added to the one read so far. -/
theorem readText_of_spells {body : Symbols} {text : List Char} (hspells : Spells body text)
    (before : List Char) (rest : Symbols) :
    readText (before.map some).reverse .nothing (body ++ some '"' :: rest) =
      .ok (String.ofList (before ++ text), rest) := by
  have hadd : ∀ (before : List Char) (c : Char),
      some c :: (before.map some).reverse = ((before ++ [c]).map some).reverse := by
    simp
  induction hspells generalizing before with
  | nil =>
      have hcharacters := characters?_eq_some_iff.mpr (Eq.refl (before.map some))
      simp [readText, hcharacters]
  | plain hquote hescape hcontrol _ ih =>
      rw [List.cons_append, readText_plain (by simpa using hquote) (by simpa using hescape)
        hcontrol, hadd, ih, List.append_assoc]
      rfl
  | short hletter _ ih =>
      rw [List.cons_append, List.cons_append, readText_short hletter, hadd, ih,
        List.append_assoc]
      rfl
  | unit hunit hlead htrail _ ih =>
      simp only [List.cons_append, Between.nothing.readText_unit, readText_unit hunit,
        closeUnit_char hlead htrail]
      rw [hadd, ih, List.append_assoc]
      rfl
  | pair hfirst hlead hsecond htrail _ ih =>
      simp only [List.cons_append, Between.nothing.readText_unit, readText_unit hfirst,
        closeUnit_leading hlead, (Between.pair _).readText_unit, readText_unit hsecond,
        closeUnit_trailing htrail]
      rw [hadd, ih, List.append_assoc]
      rfl

/-- The text that the rest of a string spells where nothing is open, or where a pair of
surrogates is. -/
inductive SpellsFrom : Open → Symbols → List Char → Prop
  | nothing {body : Symbols} {text : List Char} (hspells : Spells body text) :
      SpellsFrom .nothing body text
  | pair {m n : Nat} {e f g h : Option Char} {body : Symbols} {text : List Char}
      (hsecond : codeUnit? e f g h = some n) (htrail : isTrailing n)
      (hspells : Spells body text) :
      SpellsFrom (.pairEscape m) (some '\\' :: some 'u' :: e :: f :: g :: h :: body)
        (pairedChar m n :: text)

/-- The symbols read so far, and those that the rest of a string spells, make up the text. -/
def Completes (read : List (Option Char)) (still : Open) (body : Symbols) (text : String) : Prop :=
  ∃ before after, read.reverse = before.map some ∧ text.toList = before ++ after ∧
    SpellsFrom still body after

/-- A symbol that was read is the first one of what is spelled from there. -/
theorem Completes.of_cons {s : Option Char} {still next : Open} {body more : Symbols}
    {text : String} (hcompletes : Completes (s :: read) next more text)
    (hspells : ∀ c after, s = some c → SpellsFrom next more after →
      SpellsFrom still body (c :: after)) : Completes read still body text := by
  obtain ⟨before, after, hread, htext, hafter⟩ := hcompletes
  rw [List.reverse_cons] at hread
  obtain ⟨start, last, rfl, hstart, hlast⟩ := List.append_eq_map_iff.mp hread
  obtain ⟨c, rfl, hc⟩ := List.map_eq_singleton_iff.mp hlast
  exact ⟨start, c :: after, hstart.symm, by simpa using htext, hspells c after hc.symm hafter⟩

/-- A string that is read is read up to its own quote, and it spells what is read. -/
theorem completes_of_readText {body : Symbols} (hbody : Body body) {still : Open}
    {lead : Option Nat} (hstill : Between still lead) {text : String} {left : Symbols}
    (hread : readText read still (body ++ some '"' :: rest) = .ok (text, left)) :
    left = rest ∧ Completes read still body text := by
  induction hbody generalizing read still lead with
  | nil =>
      cases hstill with
      | pair => simp [readText] at hread
      | nothing =>
          simp only [List.nil_append, readText, if_true] at hread
          split at hread
          next characters hcharacters =>
            obtain ⟨rfl, rfl⟩ := Prod.mk.inj (Except.ok.inj hread)
            exact ⟨rfl, characters, [], characters?_eq_some_iff.mp hcharacters, by simp,
              .nothing .nil⟩
          next => contradiction
  | plain hquote hescape hcontrol _ ih =>
      cases hstill with
      | pair => simp [readText, hescape] at hread
      | nothing =>
          simp only [List.cons_append, readText_plain hquote hescape hcontrol] at hread
          obtain ⟨hleft, hcompletes⟩ := ih .nothing hread
          refine ⟨hleft, hcompletes.of_cons ?_⟩
          rintro c after rfl ⟨hspells⟩
          exact .nothing (.plain (by simpa using hquote) (by simpa using hescape) hcontrol hspells)
  | short hletter _ ih =>
      cases hstill with
      | pair => simp [readText, ne_unit_of_shortEscape? hletter] at hread
      | nothing =>
          simp only [List.cons_append, readText_short hletter] at hread ⊢
          obtain ⟨hleft, hcompletes⟩ := ih .nothing hread
          refine ⟨hleft, hcompletes.of_cons ?_⟩
          rintro c after hc ⟨hspells⟩
          obtain rfl := Option.some.inj hc
          exact .nothing (.short hletter hspells)
  | @unit a b c d n rest hunit _ ih =>
      simp only [List.cons_append, hstill.readText_unit, Json.readText_unit hunit] at hread
      cases hstill with
      | nothing =>
          by_cases htrail : isTrailing n
          · simp [closeUnit_lone htrail] at hread
          · by_cases hlead : isLeading n
            · -- The text goes on behind the second half of the pair.
              rw [closeUnit_leading hlead] at hread
              obtain ⟨hleft, before, after, hbefore, htext, hpair⟩ := ih (.pair n) hread
              cases hpair with
              | pair hsecond htrail hspells =>
                  exact ⟨hleft, before, _, hbefore, htext,
                    .nothing (.pair hunit hlead hsecond htrail hspells)⟩
            · rw [closeUnit_char hlead htrail] at hread
              obtain ⟨hleft, hcompletes⟩ := ih .nothing hread
              refine ⟨hleft, hcompletes.of_cons ?_⟩
              rintro c after hc ⟨hspells⟩
              obtain rfl := Option.some.inj hc
              exact .nothing (.unit hunit hlead htrail hspells)
      | pair lead =>
          by_cases htrail : isTrailing n
          · rw [closeUnit_trailing htrail] at hread
            obtain ⟨hleft, hcompletes⟩ := ih .nothing hread
            refine ⟨hleft, hcompletes.of_cons ?_⟩
            rintro c after hc ⟨hspells⟩
            obtain rfl := Option.some.inj hc
            exact .pair hunit htrail hspells
          · simp [closeUnit_unpaired htrail] at hread

/-- Exactly the strings that spell a text are read, each as that text and up to its quote. -/
theorem readString_eq_ok_iff {body : Symbols} (hbody : Body body) {text : String}
    {left : Symbols} : readString (body ++ some '"' :: rest) = .ok (text, left) ↔
      left = rest ∧ Spells body text.toList := by
  constructor
  · intro hread
    obtain ⟨hleft, before, after, hbefore, htext, hspells⟩ :=
      completes_of_readText hbody .nothing hread
    obtain rfl := List.map_eq_nil_iff.mp hbefore.symm
    obtain ⟨hspells⟩ := hspells
    exact ⟨hleft, htext ▸ hspells⟩
  · rintro ⟨rfl, hspells⟩
    have hread := readText_of_spells hspells [] left
    rwa [List.nil_append, String.ofList_toList] at hread

/-- The symbols between the quotes of a string spell no other text. -/
theorem Spells.unique {body : Symbols} {text other : String} (htext : Spells body text.toList)
    (hother : Spells body other.toList) : text = other := by
  have hread : readString (body ++ [some '"']) = .ok (text, []) :=
    (readString_eq_ok_iff htext.body).mpr ⟨rfl, htext⟩
  rw [(readString_eq_ok_iff htext.body).mpr ⟨rfl, hother⟩] at hread
  exact (Prod.mk.inj (Except.ok.inj hread)).1.symm

end TimingReport.Json
