import TimingReport.Json.Shape
import TimingReport.Proofs.Text.Groups

/-!
# Reading bytes and reading characters

A document can be read as its bytes or as its characters. Both are the same symbols wherever the
syntax of JSON matters, since it is all ASCII. So a reader that takes a value from the one takes
the same value from the other, or fails with the same fault.
-/

namespace TimingReport.Json

open Text.Utf8

variable {α β γ δ : Type} {u v : Symbols}

/-! ## Documents in both media -/

/-- The symbols are the bytes of a document and the characters of the same document. -/
def Decodes (u v : Symbols) : Prop :=
  ∃ bytes : List UInt8, u = bytes.map ofByte ∧ v = symbols bytes

/-- What the bytes and the characters of a document begin with: the same symbol of ASCII, or two
others. -/
inductive Heads : Option Char → Option Char → Symbols → Symbols → Prop
  | ascii {c : Char} {u v : Symbols} (hascii : c.toNat < 0x80) (hrest : Decodes u v) :
      Heads (some c) (some c) u v
  | foreign {s t : Option Char} {u v : Symbols} (hs : IsForeign s) (ht : IsForeign t) :
      Heads s t u v

/-- Bytes and characters end together. -/
inductive Fronts : Symbols → Symbols → Prop
  | nil : Fronts [] []
  | cons {s t : Option Char} {u v : Symbols} (hheads : Heads s t u v) : Fronts (s :: u) (t :: v)

/-- A byte outside of ASCII is a symbol outside of ASCII. -/
theorem isForeign_ofByte {b : UInt8} (hforeign : 0x80 ≤ b) : IsForeign (ofByte b) := by
  rintro c hc
  obtain rfl := Option.some.inj hc
  rw [toNat_ofNat_byte]
  exact UInt8.le_iff_toNat_le.mp hforeign

/-- Bytes and characters begin alike. -/
theorem Decodes.fronts (h : Decodes u v) : Fronts u v := by
  obtain ⟨bytes, rfl, rfl⟩ := h
  cases bytes with
  | nil => exact .nil
  | cons b bytes =>
      by_cases hascii : b < 0x80
      · rw [List.map_cons, symbols_cons_ascii hascii]
        refine .cons (.ascii ?_ ⟨bytes, rfl, rfl⟩)
        rw [toNat_ofNat_byte]
        exact UInt8.lt_iff_toNat_lt.mp hascii
      · have hforeign := UInt8.not_lt.mp hascii
        obtain ⟨group, rest, s, -, -, -, hs, -, hsymbols⟩ := symbols_cons_foreign hforeign bytes
        rw [List.map_cons, hsymbols]
        exact .cons (.foreign (isForeign_ofByte hforeign) hs)

theorem Decodes.isEmpty_eq (h : Decodes u v) : u.isEmpty = v.isEmpty := by
  cases h.fronts <;> rfl

/-- A character of ASCII is the head of both or of neither. -/
theorem Heads.is {s t : Option Char} (h : Heads s t u v) (c : Char) (hc : c.toNat < 0x80) :
    (s = some c ∧ t = some c ∧ Decodes u v) ∨ (s ≠ some c ∧ t ≠ some c) := by
  cases h with
  | foreign hs ht => exact .inr ⟨hs.ne hc, ht.ne hc⟩
  | @ascii d u v hascii hrest =>
      by_cases heq : some d = some c
      · exact .inl ⟨heq, heq, hrest⟩
      · exact .inr ⟨heq, heq⟩

/-- A test that only ASCII passes. -/
def IsAscii (p : Option Char → Bool) : Prop := ∀ {s}, IsForeign s → p s = false

/-- A test for ASCII passes the fronts of bytes and characters together or neither. -/
theorem Heads.passes {s t : Option Char} (h : Heads s t u v) {p : Option Char → Bool}
    (hp : IsAscii p) : (s = t ∧ p s ∧ Decodes u v) ∨ (p s = false ∧ p t = false) := by
  cases h with
  | foreign hs ht => exact .inr ⟨hp hs, hp ht⟩
  | @ascii c u v hascii hrest =>
      cases hpass : p (some c) with
      | true => exact .inl ⟨rfl, rfl, hrest⟩
      | false => exact .inr ⟨rfl, rfl⟩

theorem isAscii_isBlank : IsAscii isBlank := by
  intro s hs
  simp [isBlank, hs.ne]

theorem isAscii_isDigit : IsAscii isDigit := by
  intro s hs
  cases s with
  | none => rfl
  | some c =>
      have hforeign : 0x80 ≤ c.toNat := hs c rfl
      have hlt : ¬c.toNat ≤ 57 := by omega
      simp only [isDigit, Char.isDigit, Bool.and_eq_false_iff, decide_eq_false_iff_not]
      exact .inr hlt

/-- Symbols of ASCII at the front are the same ones, and the same bytes are left after them. -/
theorem Decodes.span {p : Option Char → Bool} (hp : IsAscii p) (h : Decodes u v) :
    u.takeWhile p = v.takeWhile p ∧ Decodes (u.dropWhile p) (v.dropWhile p) := by
  induction u generalizing v with
  | nil =>
      cases h.fronts with
      | nil => exact ⟨rfl, h⟩
  | cons s u ih =>
      cases h.fronts with
      | cons hheads =>
          rcases hheads.passes hp with ⟨rfl, hs, hrest⟩ | ⟨hs, ht⟩
          · obtain ⟨htake, hdrop⟩ := ih hrest
            simpa [List.takeWhile_cons, List.dropWhile_cons, hs, htake] using hdrop
          · simpa [List.takeWhile_cons, List.dropWhile_cons, hs, ht] using h

/-- White space is the same in bytes and in characters. -/
theorem Decodes.skipBlank (h : Decodes u v) : Decodes (skipBlank u) (skipBlank v) :=
  (h.span isAscii_isBlank).2

/-! ## Readers in both media -/

/-- Both readings fail with one fault, or they succeed with related results. -/
inductive Agrees (R : α → β → Prop) : Except Fault α → Except Fault β → Prop
  | error (fault : Fault) : Agrees R (.error fault) (.error fault)
  | ok {a : α} {b : β} (hrelated : R a b) : Agrees R (.ok a) (.ok b)

/-- What is made of related results is related. -/
theorem Agrees.map {R : α → β → Prop} {S : γ → δ → Prop} {x : Except Fault α} {y : Except Fault β}
    (h : Agrees R x y) {f : α → γ} {g : β → δ} (hfg : ∀ {a b}, R a b → S (f a) (g b)) :
    Agrees S (x.map f) (y.map g) := by
  cases h with
  | error fault => exact .error fault
  | ok hrelated => exact .ok (hfg hrelated)

/-- Related results go on to related ones, and faults stay the same. -/
theorem Agrees.bind {R : α → β → Prop} {S : γ → δ → Prop} {x : Except Fault α}
    {y : Except Fault β} (h : Agrees R x y) {f : α → Except Fault γ} {g : β → Except Fault δ}
    (hfg : ∀ {a b}, R a b → Agrees S (f a) (g b)) : Agrees S (x >>= f) (y >>= g) := by
  cases h with
  | error fault => exact .error fault
  | ok hrelated => exact hfg hrelated

theorem Agrees.eq {x y : Except Fault α} (h : Agrees Eq x y) : x = y := by
  cases h with
  | error fault => rfl
  | ok heq => exact congrArg _ heq

theorem agrees_rfl (x : Except Fault α) : Agrees Eq x x := by
  cases x with
  | error fault => exact .error fault
  | ok a => exact .ok rfl

/-- The same value, and what is left of the document after it. -/
def Along (a b : α × Symbols) : Prop := a.1 = b.1 ∧ Decodes a.2 b.2

/-- The one reader takes from the bytes of any document what the other takes from its
characters. -/
def Alike (bytes text : Reader α) : Prop :=
  ∀ ⦃u v : Symbols⦄, Decodes u v → Agrees Along (bytes u) (text v)

/-- A word of ASCII is read alike from bytes and from characters. -/
theorem readLiteral_agrees (literal : List Char) (hliteral : ∀ c ∈ literal, c.toNat < 0x80)
    (h : Decodes u v) : Agrees Decodes (readLiteral literal u) (readLiteral literal v) := by
  induction literal generalizing u v with
  | nil => exact .ok h
  | cons c literal ih =>
      obtain ⟨hc, hliteral⟩ := List.forall_mem_cons.mp hliteral
      cases h.fronts with
      | nil => exact .error _
      | cons hheads =>
          rcases hheads.is c hc with ⟨rfl, rfl, hrest⟩ | ⟨hs, ht⟩
          · simpa [readLiteral] using ih hliteral hrest
          · simpa [readLiteral, hs, ht] using .error _

/-! ## Numbers -/

variable (positive : Bool)

/-- Digits are the same in bytes and in characters. -/
theorem spanDigits_agrees (h : Decodes u v) : Along (spanDigits u) (spanDigits v) := by
  obtain ⟨htake, hdrop⟩ := h.span isAscii_isDigit
  exact ⟨congrArg (List.map digitValue) htake, hdrop⟩

theorem readSign_agrees (h : Decodes u v) : Along (readSign u) (readSign v) := by
  cases h.fronts with
  | nil => exact ⟨rfl, h⟩
  | cons hheads =>
      rcases hheads.is '+' (by decide) with ⟨rfl, rfl, hrest⟩ | hplus
      · exact ⟨rfl, hrest⟩
      rcases hheads.is '-' (by decide) with ⟨rfl, rfl, hrest⟩ | hminus
      · exact ⟨rfl, hrest⟩
      simpa [readSign, hplus, hminus, Along] using h

theorem alike_readExponent (count : Nat) (start : Int) :
    Alike (readExponent positive count start) (readExponent positive count start) := by
  intro u v h
  obtain ⟨hup, hsigned⟩ := readSign_agrees h
  obtain ⟨hdigits, hrest⟩ := spanDigits_agrees hsigned
  unfold readExponent
  simp only [hup, hdigits, hsigned.isEmpty_eq]
  split_ifs
  · exact .error _
  · exact .error _
  · exact .error _
  · exact .ok ⟨rfl, hrest⟩
  all_goals
    refine (agrees_rfl _).bind ?_
    rintro x _ rfl
    exact .ok ⟨rfl, hrest⟩

theorem alike_readScale (count : Nat) (exponent : Int) :
    Alike (readScale positive count exponent) (readScale positive count exponent) := by
  intro u v h
  have hscaled : Agrees Along ((scaled count exponent).map fun x => (realNumber positive x, u))
      ((scaled count exponent).map fun x => (realNumber positive x, v)) := by
    refine (agrees_rfl _).map ?_
    rintro x _ rfl
    exact ⟨rfl, h⟩
  cases h.fronts with
  | nil => exact hscaled
  | cons hheads =>
      rcases hheads.is 'e' (by decide) with ⟨rfl, rfl, hrest⟩ | hsmall
      · exact alike_readExponent positive count exponent hrest
      rcases hheads.is 'E' (by decide) with ⟨rfl, rfl, hrest⟩ | hlarge
      · exact alike_readExponent positive count exponent hrest
      simpa [readScale, hsmall, hlarge] using hscaled

theorem alike_readFraction (count dropped : Nat) :
    Alike (readFraction positive count dropped) (readFraction positive count dropped) := by
  intro u v h
  obtain ⟨hdigits, hrest⟩ := spanDigits_agrees h
  unfold readFraction
  simp only [hdigits, h.isEmpty_eq]
  split_ifs with hnone
  · exact .error _
  · exact .error _
  · exact alike_readScale positive _ _ hrest

theorem alike_readTail (count dropped : Nat) :
    Alike (readTail positive count dropped) (readTail positive count dropped) := by
  intro u v h
  have hwhole : Agrees Along
      (if dropped = 0 then .ok (wholeNumber positive count, u)
        else (scaled count dropped).map fun x => (realNumber positive x, u))
      (if dropped = 0 then .ok (wholeNumber positive count, v)
        else (scaled count dropped).map fun x => (realNumber positive x, v)) := by
    split_ifs
    · exact .ok ⟨rfl, h⟩
    · refine (agrees_rfl _).map ?_
      rintro x _ rfl
      exact ⟨rfl, h⟩
  cases h.fronts with
  | nil => exact hwhole
  | cons hheads =>
      rcases hheads.is '.' (by decide) with ⟨rfl, rfl, hrest⟩ | hpoint
      · exact alike_readFraction positive count dropped hrest
      rcases hheads.is 'e' (by decide) with ⟨rfl, rfl, hrest⟩ | hsmall
      · exact alike_readExponent positive count dropped hrest
      rcases hheads.is 'E' (by decide) with ⟨rfl, rfl, hrest⟩ | hlarge
      · exact alike_readExponent positive count dropped hrest
      simpa [readTail, hpoint, hsmall, hlarge] using hwhole

theorem alike_readUnsigned : Alike (readUnsigned positive) (readUnsigned positive) := by
  intro u v h
  cases h.fronts with
  | nil => exact .error _
  | @cons s t u v hheads =>
      rcases hheads.is '0' (by decide) with ⟨rfl, rfl, hrest⟩ | hzero
      · have htail := alike_readTail positive 0 0 hrest
        cases hrest.fronts with
        | nil => exact htail
        | cons hnext =>
            rcases hnext.passes isAscii_isDigit with ⟨rfl, hdigit, -⟩ | ⟨hs, ht⟩
            · simpa [readUnsigned, hdigit] using .error _
            · simpa [readUnsigned, hs, ht] using htail
      · rcases hheads.passes isAscii_isDigit with ⟨rfl, hdigit, -⟩ | ⟨hs, ht⟩
        · obtain ⟨hdigits, hrest⟩ := spanDigits_agrees h
          simpa [readUnsigned, hzero, hdigit, hdigits] using alike_readTail positive _ _ hrest
        · simpa [readUnsigned, hzero, hs, ht] using .error _

/-- A number is read alike from bytes and from characters, with all its parts. -/
theorem alike_readNumber : Alike readNumber readNumber := by
  intro u v h
  cases h.fronts with
  | nil => exact alike_readUnsigned true h
  | cons hheads =>
      rcases hheads.is '-' (by decide) with ⟨rfl, rfl, hrest⟩ | hminus
      · exact alike_readUnsigned false hrest
      · simpa [readNumber, hminus] using alike_readUnsigned true h

end TimingReport.Json
