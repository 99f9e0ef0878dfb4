import TimingReport.Json.Number
import TimingReport.Proofs.Decimal.Digits
import TimingReport.Proofs.Json.Grammar

/-!
# Reading numbers

A number of the grammar is read up to its end, and what it is read as depends on its own
symbols alone. The digits of a natural number are read as that number.
-/

namespace TimingReport.Json

/-- What the reader makes of a text does not depend on what follows it. -/
def Steady {α : Type} (read : Reader α) (text : Symbols) : Prop :=
  ∃ outcome : Except Fault α, ∀ rest, Ends rest → read (text ++ rest) = outcome.map (·, rest)

/-! ## Digits -/

/-- The symbols begin with no digit. -/
def NoDigit (rest : Symbols) : Prop := ∀ s ∈ rest.head?, ¬isDigit s

theorem Ends.noDigit {rest : Symbols} (hrest : Ends rest) : NoDigit rest :=
  fun s hs => (not_number_of_isEnd (hrest s hs)).1

theorem noDigit_cons {s : Option Char} (hs : ¬isDigit s) (rest : Symbols) :
    NoDigit (s :: rest) := by
  intro d hd
  obtain rfl := Option.some.inj hd
  exact hs

/-- Digits are read up to the first character that is none. -/
theorem spanDigits_append {digits rest : Symbols} (hdigits : ∀ d ∈ digits, isDigit d)
    (hrest : NoDigit rest) : spanDigits (digits ++ rest) = (digits.map digitValue, rest) := by
  have hnone : rest.takeWhile isDigit = [] ∧ rest.dropWhile isDigit = rest := by
    cases rest with
    | nil => exact ⟨rfl, rfl⟩
    | cons s rest => simp [hrest s rfl]
  rw [spanDigits, List.takeWhile_append_of_pos hdigits, List.dropWhile_append_of_pos hdigits,
    hnone.1, hnone.2, List.append_nil]

/-! ## Exponents -/

variable {positive : Bool} {count : Nat}

/-- The number with an exponent of the given digits, which goes up or down. -/
def withExponent (positive : Bool) (count : Nat) (start : Int) (up : Bool) (digits : List Nat) :
    Except Fault Number :=
  let exponent : Nat := digits.foldl (fun n d => n * 10 + d) 0
  if maxExponent < exponent then
    if up && count ≠ 0 then .error .numberOutOfRange else .ok (realNumber positive (.zero false))
  else
    (scaled count (if up then start + exponent else start - exponent)).map (realNumber positive)

theorem isEmpty_digitValues {digits : Symbols} (hdigits : Digits digits) :
    (digits.map digitValue).isEmpty = false := by
  simpa using hdigits.1

/-- The symbol is the sign of an exponent that goes up, or of one that goes down. -/
inductive Directs : Option Char → Bool → Prop
  | up : Directs (some '+') true
  | down : Directs (some '-') false

/-- Behind its sign an exponent consists of all digits that follow. -/
theorem readExponent_signed {s : Option Char} {up : Bool} (hs : Directs s up) (start : Int)
    {digits rest : Symbols} (hdigits : Digits digits) (hrest : NoDigit rest) :
    readExponent positive count start (s :: (digits ++ rest)) =
      (withExponent positive count start up (digits.map digitValue)).map (·, rest) := by
  have hspan := spanDigits_append hdigits.2 hrest
  have hsome := isEmpty_digitValues hdigits
  -- Only the range of the exponent is left to decide, and then what the scaling gives.
  cases hs <;>
  · simp only [readExponent, readSign, hspan, hsome, withExponent, Bool.false_eq_true, if_false]
    split
    · split <;> rfl
    · cases scaled count _ <;> rfl

/-- An exponent without a sign is read as one with a plus. -/
theorem readExponent_unsigned (start : Int) {digits rest : Symbols} (hdigits : Digits digits) :
    readExponent positive count start (digits ++ rest) =
      readExponent positive count start (some '+' :: (digits ++ rest)) := by
  obtain ⟨hne, hall⟩ := hdigits
  cases digits with
  | nil => exact absurd rfl hne
  | cons d digits =>
      have hd := hall d List.mem_cons_self
      have hplus : d ≠ some '+' := by rintro rfl; exact absurd hd (by decide)
      have hminus : d ≠ some '-' := by rintro rfl; exact absurd hd (by decide)
      simp [readExponent, readSign, hplus, hminus]

variable (positive count)

/-- An exponent is read the same, whatever follows it. -/
theorem steady_readExponent {sign digits : Symbols} (hsign : Sign sign) (hdigits : Digits digits)
    (start : Int) : Steady (readExponent positive count start) (sign ++ digits) := by
  cases hsign with
  | absent =>
      refine ⟨withExponent positive count start true (digits.map digitValue), fun rest hrest => ?_⟩
      rw [List.nil_append, readExponent_unsigned start hdigits,
        readExponent_signed .up start hdigits hrest.noDigit]
  | plus =>
      exact ⟨_, fun rest hrest => readExponent_signed .up start hdigits hrest.noDigit⟩
  | minus =>
      exact ⟨_, fun rest hrest => readExponent_signed .down start hdigits hrest.noDigit⟩

/-! ## The parts behind the digits -/

theorem noDigit_exponent {exponent rest : Symbols} (hexponent : Exponent exponent)
    (hrest : Ends rest) : NoDigit (exponent ++ rest) := by
  cases hexponent with
  | absent => exact hrest.noDigit
  | present hletter _ _ => rcases hletter with rfl | rfl <;> exact noDigit_cons (by decide) _

/-- What scales a number is read the same, whatever follows it. -/
theorem steady_readScale {exponent : Symbols} (hexponent : Exponent exponent) (start : Int) :
    Steady (readScale positive count start) exponent := by
  cases hexponent with
  | absent =>
      refine ⟨(scaled count start).map (realNumber positive), fun rest hrest => ?_⟩
      rw [List.nil_append]
      unfold readScale
      split
      next tail => exact absurd (hrest _ rfl) (by decide)
      next tail => exact absurd (hrest _ rfl) (by decide)
      next => cases scaled count start <;> rfl
  | present hletter hsign hdigits =>
      rcases hletter with rfl | rfl <;> exact steady_readExponent positive count hsign hdigits start

/-- The digits behind a point are read the same, whatever follows them. -/
theorem steady_readFraction {digits exponent : Symbols} (hdigits : Digits digits)
    (hexponent : Exponent exponent) (dropped : Nat) :
    Steady (readFraction positive count dropped) (digits ++ exponent) := by
  obtain ⟨outcome, houtcome⟩ := steady_readScale positive
    (gather count (digits.map digitValue)).1 hexponent
    ((dropped : Int) - (((digits.map digitValue).length -
      (gather count (digits.map digitValue)).2.length : Nat) : Int))
  refine ⟨outcome, fun rest hrest => ?_⟩
  rw [List.append_assoc, ← houtcome rest hrest]
  have hspan := spanDigits_append hdigits.2 (noDigit_exponent hexponent hrest)
  simp only [readFraction, hspan, isEmpty_digitValues hdigits, Bool.false_eq_true, if_false]

/-- A number that ends behind its digits is whole unless some of them were dropped. -/
theorem readTail_ends (dropped : Nat) {rest : Symbols} (hrest : Ends rest) :
    readTail positive count dropped rest =
      if dropped = 0 then .ok (wholeNumber positive count, rest)
      else (scaled count dropped).map fun x => (realNumber positive x, rest) := by
  unfold readTail
  split
  next => exact absurd (hrest _ rfl) (by decide)
  next => exact absurd (hrest _ rfl) (by decide)
  next => exact absurd (hrest _ rfl) (by decide)
  next => rfl

/-- What follows the digits before a point is read the same, whatever follows it. -/
theorem steady_readTail {fraction exponent : Symbols} (hfraction : Fraction fraction)
    (hexponent : Exponent exponent) (dropped : Nat) :
    Steady (readTail positive count dropped) (fraction ++ exponent) := by
  cases hfraction with
  | present hdigits => exact steady_readFraction positive count hdigits hexponent dropped
  | absent =>
    cases hexponent with
    | present hletter hsign hdigits =>
        rcases hletter with rfl | rfl <;>
          exact steady_readExponent positive count hsign hdigits dropped
    | absent =>
        refine ⟨if dropped = 0 then .ok (wholeNumber positive count) else
          (scaled count dropped).map (realNumber positive), fun rest hrest => ?_⟩
        rw [List.nil_append, List.nil_append, readTail_ends positive count dropped hrest]
        split
        · rfl
        · cases scaled count dropped <;> rfl

/-! ## Whole numbers -/

theorem noDigit_fraction {fraction exponent rest : Symbols} (hfraction : Fraction fraction)
    (hexponent : Exponent exponent) (hrest : Ends rest) :
    NoDigit (fraction ++ (exponent ++ rest)) := by
  cases hfraction with
  | absent =>
      rw [List.nil_append]
      exact noDigit_exponent hexponent hrest
  | present hdigits => exact noDigit_cons (by decide) _

variable {positive}

/-- A zero in front is the only digit before a point. -/
theorem readUnsigned_zero {rest : Symbols} (hrest : NoDigit rest) :
    readUnsigned positive (some '0' :: rest) = readTail positive 0 0 rest := by
  cases rest with
  | nil => rfl
  | cons s rest => simp [readUnsigned, hrest s rfl]

/-- Digits before a point are gathered into a count, and those that do not fit are dropped. -/
theorem readUnsigned_digits {first : Option Char} {digits rest : Symbols}
    (hfirst : first ≠ some '0') (hdigits : Digits (first :: digits)) (hrest : NoDigit rest) :
    readUnsigned positive (first :: (digits ++ rest)) =
      readTail positive (gather 0 ((first :: digits).map digitValue)).1
        (gather 0 ((first :: digits).map digitValue)).2.length rest := by
  have hspan := spanDigits_append hdigits.2 hrest
  have hdigit := hdigits.2 first List.mem_cons_self
  rw [List.cons_append] at hspan
  simp [readUnsigned, hdigit, hspan]

/-- As many digits of a whole number as fit are counted, and those that are left are behind. -/
theorem readUnsigned_whole {whole rest : Symbols} (hwhole : Whole whole) (hrest : NoDigit rest) :
    readUnsigned positive (whole ++ rest) =
      readTail positive (gather 0 (whole.map digitValue)).1
        (gather 0 (whole.map digitValue)).2.length rest := by
  cases hwhole with
  | zero =>
      rw [List.singleton_append, readUnsigned_zero hrest]
      rfl
  | digits hfirst hdigits => exact readUnsigned_digits hfirst hdigits hrest

/-- A number is read the same, whatever follows it. -/
theorem steady_readUnsigned (positive : Bool) {text : Symbols} (hnumber : Unsigned text) :
    Steady (readUnsigned positive) text := by
  obtain @⟨whole, fraction, exponent, hwhole, hfraction, hexponent⟩ := hnumber
  obtain ⟨outcome, houtcome⟩ := steady_readTail positive
    (gather 0 (whole.map digitValue)).1 hfraction hexponent
    (gather 0 (whole.map digitValue)).2.length
  refine ⟨outcome, fun rest hrest => ?_⟩
  rw [← houtcome rest hrest, List.append_assoc, List.append_assoc]
  exact readUnsigned_whole hwhole (noDigit_fraction hfraction hexponent hrest)

/-- A digit in front belongs to a number without a sign. -/
theorem readNumber_of_digit {d : Option Char} (hd : isDigit d) (s : Symbols) :
    readNumber (d :: s) = readUnsigned true (d :: s) := by
  unfold readNumber
  split
  next heq =>
    obtain ⟨rfl, _⟩ := List.cons.inj heq
    exact absurd hd (by decide)
  next => rfl

theorem steady_readNumber {text : Symbols} (hnumber : Unsigned text) : Steady readNumber text := by
  obtain ⟨outcome, houtcome⟩ := steady_readUnsigned true hnumber
  obtain ⟨d, digits, rfl, hdigit⟩ := hnumber.exists_digit
  refine ⟨outcome, fun rest hrest => ?_⟩
  rw [← houtcome rest hrest, List.cons_append, readNumber_of_digit hdigit]

/-- A number behind a minus is read the same, whatever follows it. -/
theorem steady_readNumber_negative {text : Symbols} (hnumber : Unsigned text) :
    Steady readNumber (some '-' :: text) :=
  steady_readUnsigned false hnumber

/-! ## The digits of natural numbers -/

theorem isDigit_of_mem_digits {n : Nat} {s : Option Char}
    (hs : s ∈ (Decimal.digits n).map some) : isDigit s := by
  obtain ⟨c, hc, rfl⟩ := List.mem_map.mp hs
  exact Decimal.isDigit_digits n c hc

/-- The digits of a natural number are a whole number as it is written. -/
theorem whole_digits (n : Nat) : Whole ((Decimal.digits n).map some) := by
  by_cases hzero : n = 0
  · subst hzero
    exact .zero
  · have hhead := Decimal.head?_digits_ne hzero
    have hdigits : ∀ s ∈ (Decimal.digits n).map some, isDigit s :=
      fun s hs => isDigit_of_mem_digits hs
    cases hn : Decimal.digits n with
    | nil => exact absurd hn Nat.toDigits_ne_nil
    | cons c rest =>
        rw [hn] at hhead hdigits
        exact .digits (by simpa using hhead) ⟨List.cons_ne_nil _ _, hdigits⟩

theorem le_foldl (count : Nat) (digits : List Nat) :
    count ≤ digits.foldl (fun n d => n * 10 + d) count := by
  induction digits generalizing count with
  | nil => exact Nat.le_refl count
  | cons d digits ih => exact Nat.le_trans (by omega) (ih (count * 10 + d))

/-- All digits are gathered if what they write still fits. -/
theorem gather_eq {count : Nat} {digits : List Nat}
    (hfits : digits.foldl (fun n d => n * 10 + d) count ≤ maxCount) :
    gather count digits = (digits.foldl (fun n d => n * 10 + d) count, []) := by
  induction digits generalizing count with
  | nil => rfl
  | cons d digits ih =>
      have hle : count * 10 + d ≤ maxCount := Nat.le_trans (le_foldl _ digits) hfits
      rw [gather, if_neg (Nat.not_lt.mpr hle), ih hfits]
      rfl

/-- The digits that are read count what the text counts. -/
theorem foldl_digitValue (text : List Char) :
    ((text.map some).map digitValue).foldl (fun n d => n * 10 + d) 0 = Decimal.count text := by
  rw [List.map_map, List.foldl_map]
  rfl

theorem foldl_digitValue_digits (n : Nat) :
    (((Decimal.digits n).map some).map digitValue).foldl (fun n d => n * 10 + d) 0 = n :=
  (foldl_digitValue _).trans (Decimal.count_digits n)

/-- A whole number that fits is read as its count. -/
theorem readNumber_whole {whole : Symbols} (hwhole : Whole whole) {n : Nat}
    (hn : (whole.map digitValue).foldl (fun n d => n * 10 + d) 0 = n) (hfits : n ≤ maxCount)
    {rest : Symbols} (hrest : Ends rest) :
    readNumber (whole ++ rest) = .ok (.integer n, rest) := by
  subst hn
  obtain ⟨d, digits, rfl, hdigit⟩ := hwhole.exists_digit
  rw [List.cons_append, readNumber_of_digit hdigit, ← List.cons_append,
    readUnsigned_whole hwhole hrest.noDigit, gather_eq hfits, readTail_ends true _ _ hrest]
  rfl

/-- The digits of a natural number that fits are read as that number. -/
theorem readNumber_digits {n : Nat} (hn : n ≤ maxCount) {rest : Symbols} (hrest : Ends rest) :
    readNumber ((Decimal.digits n).map some ++ rest) = .ok (.integer n, rest) :=
  readNumber_whole (whole_digits n) (foldl_digitValue_digits n) hn hrest

end TimingReport.Json
