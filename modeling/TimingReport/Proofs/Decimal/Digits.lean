import TimingReport.Decimal.Nearest

/-!
# The digits of natural numbers

The digits of a number count up to it, and no zero stands in front of them. Zeros that fill
them up on the left do not change the count, and without such zeros a text of digits is the
digits of its count.
-/

namespace TimingReport.Decimal

theorem isDigit_digits (n : Nat) : ∀ c ∈ digits n, c.isDigit :=
  fun _ hc => Nat.isDigit_of_mem_toDigits (by decide) (by decide) hc

theorem digitChar_ne_zero {n : Nat} (hpos : n ≠ 0) (hlt : n < 10) : n.digitChar ≠ '0' := by
  have hall : ∀ d < 10, d ≠ 0 → Nat.digitChar d ≠ '0' := by decide
  exact hall n hlt hpos

/-- There is no zero in front of other digits. -/
theorem head?_digits_ne {n : Nat} (hpos : n ≠ 0) : (digits n).head? ≠ some '0' := by
  induction n using Nat.strongRecOn with
  | ind n ih =>
    by_cases hlt : n < 10
    · rw [digits, Nat.toDigits_of_lt_base hlt]
      simpa using digitChar_ne_zero hpos hlt
    · have hle : 10 ≤ n := Nat.le_of_not_lt hlt
      have hquotient := ih (n / 10) (by omega) (by omega)
      rw [digits, Nat.toDigits_of_base_le (by decide) hle]
      cases hdigits : Nat.toDigits 10 (n / 10) with
      | nil => exact absurd hdigits Nat.toDigits_ne_nil
      | cons c rest =>
          rw [digits, hdigits] at hquotient
          exact hquotient

/-! ## Counts -/

theorem count_eq (text : List Char) : count text = Nat.ofDigitChars 10 text 0 := by
  rw [count, Nat.ofDigitChars_eq_foldl]
  simp only [Nat.mul_comm]

theorem count_digits (n : Nat) : count (digits n) = n :=
  (count_eq _).trans Nat.ofDigitChars_ten_toDigits

theorem count_append (first second : List Char) :
    count (first ++ second) = count first * Nat.pow 10 second.length + count second := by
  rw [count_eq, count_eq, count_eq, Nat.ofDigitChars_append,
    Nat.ofDigitChars_eq_ofDigitChars_zero, Nat.mul_comm, Nat.pow_eq]

theorem count_padLeft (width : Nat) (text : List Char) :
    count (padLeft width '0' text) = count text := by
  rw [padLeft, count_append, count_eq (List.replicate _ _), Nat.ofDigitChars_replicate_zero,
    Nat.mul_zero, Nat.zero_mul, Nat.zero_add]

/-! ## Digits of counts -/

theorem digitChar_of_isDigit {c : Char} (hc : c.isDigit) :
    c.toNat - '0'.toNat < 10 ∧ Nat.digitChar (c.toNat - '0'.toNat) = c := by
  have hbounds : '0'.toNat ≤ c.toNat ∧ c.toNat ≤ '9'.toNat := by
    simpa [Char.isDigit, UInt32.le_iff_toNat_le] using hc
  have hlt : c.toNat - '0'.toNat < 10 :=
    Nat.sub_lt_right_of_lt_add hbounds.1 (Nat.lt_succ_of_le hbounds.2)
  refine ⟨hlt, Char.toNat_inj.mp ?_⟩
  rw [Nat.toNat_digitChar_of_lt_ten hlt]
  exact Nat.add_sub_of_le hbounds.1

/-- Digits behind those of a number other than zero are the last digits of a larger number. -/
theorem digits_append {n : Nat} (hpos : 0 < n) {text : List Char}
    (hdigits : ∀ c ∈ text, c.isDigit) :
    digits n ++ text = digits (text.foldl (fun n c => n * 10 + (c.toNat - '0'.toNat)) n) := by
  induction text generalizing n with
  | nil => exact List.append_nil _
  | cons c text ih =>
      obtain ⟨hc, hdigits⟩ := List.forall_mem_cons.mp hdigits
      obtain ⟨hlt, hchar⟩ := digitChar_of_isDigit hc
      have hnext : digits n ++ [c] = digits (n * 10 + (c.toNat - '0'.toNat)) := by
        have happend := Nat.toDigits_append_toDigits (by decide) hpos hlt
        rwa [Nat.toDigits_of_lt_base hlt, hchar, Nat.mul_comm 10 n] at happend
      rw [List.foldl_cons, ← ih (by omega) hdigits, ← hnext, List.append_assoc,
        List.singleton_append]

/-- A text of digits with no zero in front is the digits of what it counts. -/
theorem digits_count {first : Char} {text : List Char} (hfirst : first ≠ '0')
    (hdigits : ∀ c ∈ first :: text, c.isDigit) : digits (count (first :: text)) = first :: text := by
  obtain ⟨hdigit, hdigits⟩ := List.forall_mem_cons.mp hdigits
  obtain ⟨hlt, hchar⟩ := digitChar_of_isDigit hdigit
  have hpos : 0 < first.toNat - '0'.toNat := by
    refine Nat.pos_of_ne_zero fun hzero => hfirst ?_
    rw [← hchar, hzero]
    rfl
  have hone : digits (first.toNat - '0'.toNat) = [first] := by
    rw [digits, Nat.toDigits_of_lt_base hlt, hchar]
  rw [count, List.foldl_cons, Nat.zero_mul, Nat.zero_add, ← digits_append hpos hdigits, hone,
    List.singleton_append]

end TimingReport.Decimal
