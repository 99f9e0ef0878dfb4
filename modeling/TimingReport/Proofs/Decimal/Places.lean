import Mathlib.Tactic.LinearCombination
import TimingReport.Proofs.Binary64.Error
import TimingReport.Proofs.Decimal.Digits

/-!
# Numbers with decimal places

A number is shown with a fixed count of places: it is rounded to the nearest number with so many
places, to the even one of two that are equally near, and what it is rounded to is written with
a whole part, a point and just these places. Nothing is lost of it, and no zero is added in front.
-/

namespace TimingReport.Decimal

open Binary64

/-! ## Rounding -/

/-- The natural number nearest to a quotient; of two that are equally near, the even one. -/
structure NearestEven (quotient : ℚ) (n : Nat) : Prop where
  nearest : ∀ other : Nat, |(n : ℚ) - quotient| ≤ |(other : ℚ) - quotient|
  even : ∀ other : Nat, other ≠ n → |(n : ℚ) - quotient| = |(other : ℚ) - quotient| → Even n

variable {num den : Nat}

/-- Half-way between two numbers the even one is taken. -/
theorem even_roundHalfEven (hden : 0 < den)
    (htie : |(roundHalfEven num den : ℚ) - num / den| = 1 / 2) : Even (roundHalfEven num den) := by
  have hpos : (0 : ℚ) < den := by exact_mod_cast hden
  have hdiv : (num : ℚ) / den * den = num := div_mul_cancel₀ _ hpos.ne'
  generalize hm : roundHalfEven num den = m at htie
  rcases (abs_eq (by norm_num)).mp htie with habove | hbelow
  · -- rounded up, so the number below is not even
    have hnum : 2 * num + den = 2 * m * den := by
      have hcast : 2 * (num : ℚ) + den = 2 * m * den := by
        linear_combination -2 * hdiv - 2 * den * habove
      exact_mod_cast hcast
    cases m with
    | zero => omega
    | succ below =>
        have hnot : ¬roundHalfEven num den ≤ below := by omega
        rw [roundHalfEven_le_iff hden, not_or] at hnot
        have hbelow : 2 * num = (2 * below + 1) * den := by
          have hsucc : 2 * (below + 1) * den = (2 * below + 1) * den + den := by ring
          omega
        rw [Nat.even_add_one, Nat.not_even_iff]
        omega
  · have hnum : 2 * num = (2 * m + 1) * den := by
      have hcast : 2 * (num : ℚ) = (2 * m + 1) * den := by
        linear_combination -2 * hdiv - 2 * den * hbelow
      exact_mod_cast hcast
    rcases (roundHalfEven_le_iff hden).mp hm.le with hlt | ⟨-, heven⟩
    · omega
    · exact Nat.even_iff.mpr heven

/-- All others are further away than half the distance between two of them. -/
theorem nearestEven_roundHalfEven (num : Nat) (hden : 0 < den) :
    NearestEven (num / den) (roundHalfEven num den) := by
  have hhalf := abs_roundHalfEven_sub_le num hden
  have hapart : ∀ other : Nat, other ≠ roundHalfEven num den →
      1 / 2 ≤ |(other : ℚ) - num / den| := by
    intro other hne
    have hone : (1 : ℚ) ≤ |(other : ℚ) - roundHalfEven num den| := by
      have hint : (1 : ℤ) ≤ |(other : ℤ) - roundHalfEven num den| :=
        Int.one_le_abs (sub_ne_zero.mpr (by exact_mod_cast hne))
      exact_mod_cast hint
    have htriangle := abs_sub_le (other : ℚ) (num / den) (roundHalfEven num den)
    rw [abs_sub_comm (num / den : ℚ)] at htriangle
    linarith
  constructor
  · intro other
    by_cases hsame : other = roundHalfEven num den
    · rw [hsame]
    · exact hhalf.trans (hapart other hsame)
  · intro other hne htie
    exact even_roundHalfEven hden (le_antisymm hhalf (htie ▸ hapart other hne))

/-! ## Places -/

/-- Digits, a point and as many digits as there are places, without a sign. -/
def IsPointed (places : Nat) (text : String) : Prop :=
  ∃ whole fraction : List Char, text = String.ofList (whole ++ '.' :: fraction) ∧
    whole ≠ [] ∧ (∀ c ∈ whole, c.isDigit) ∧
    fraction.length = places ∧ ∀ c ∈ fraction, c.isDigit

/-- The text writes a count of `10 ^ -places`, and no zero stands in front of other digits of
the whole part. -/
def Writes (places n : Nat) (text : String) : Prop :=
  ∃ whole fraction : List Char, text = String.ofList (whole ++ '.' :: fraction) ∧
    (∀ c ∈ whole ++ fraction, c.isDigit) ∧ count (whole ++ fraction) = n ∧
    whole ≠ [] ∧ (whole.head? = some '0' → whole = ['0']) ∧ fraction.length = places

variable {places n : Nat}

theorem Writes.isPointed {text : String} (hwrites : Writes places n text) :
    IsPointed places text := by
  obtain ⟨whole, fraction, htext, hdigits, -, hne, -, hlength⟩ := hwrites
  obtain ⟨hwhole, hfraction⟩ := List.forall_mem_append.mp hdigits
  exact ⟨whole, fraction, htext, hne, hwhole, hlength, hfraction⟩

theorem isDigit_padLeft {width : Nat} {text : List Char} (htext : ∀ c ∈ text, c.isDigit) :
    ∀ c ∈ padLeft width '0' text, c.isDigit := by
  intro c hc
  rcases List.mem_append.mp hc with hfill | hc
  · rw [List.eq_of_mem_replicate hfill]
    decide
  · exact htext c hc

theorem length_padLeft {width : Nat} {fill : Char} {text : List Char}
    (hlength : text.length ≤ width) : (padLeft width fill text).length = width := by
  rw [padLeft, List.length_append, List.length_replicate, Nat.sub_add_cancel hlength]

theorem writes_pointed (hplaces : 0 < places) (n : Nat) :
    Writes places n (String.ofList (pointed places n)) := by
  rw [pointed, if_neg hplaces.ne']
  have hlength : (padLeft places '0' (digits (n % Nat.pow 10 places))).length = places := by
    refine length_padLeft ((Nat.length_toDigits_le_iff (by decide) hplaces).mpr ?_)
    exact Nat.mod_lt n (Nat.pow_pos (by decide))
  refine ⟨_, _, rfl, ?_, ?_, Nat.toDigits_ne_nil, fun hzero => ?_, hlength⟩
  · exact List.forall_mem_append.mpr ⟨isDigit_digits _, isDigit_padLeft (isDigit_digits _)⟩
  · rw [count_append, count_padLeft, count_digits, count_digits, hlength, Nat.mul_comm]
    exact Nat.div_add_mod n _
  · -- only zero itself begins with a zero
    by_cases hwhole : n / Nat.pow 10 places = 0
    · rw [hwhole]
      rfl
    · exact absurd hzero (head?_digits_ne hwhole)

theorem fixed_eq {x : Binary64} (hx : x.isFinite) (hsign : x.negative = false) :
    fixed places x = String.ofList (pointed places (scaledUnits places x)) := by
  simp only [fixed, isNaN_of_isFinite hx, hsign, Bool.false_eq_true, if_false]

theorem isPointed_fixed (hplaces : 0 < places) {x : Binary64}
    (hx : x.isFinite) (hsign : x.negative = false) : IsPointed places (fixed places x) := by
  rw [fixed_eq hx hsign]
  exact (writes_pointed hplaces _).isPointed

end TimingReport.Decimal
