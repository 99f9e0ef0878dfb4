import TimingReport.Decimal.Grouped
import TimingReport.Proofs.Decimal.Digits

/-!
# Digits in groups

Commas divide the digits of a count into groups of three, counted from the right. Only the
first group may be shorter, and without the commas the digits are what they were.
-/

namespace TimingReport.Decimal

/-- The text is the digits with commas, which divide it into groups of three. The first group
may be shorter, but it is not empty. -/
structure IsGrouped (digits text : List Char) : Prop where
  digits : text.filter (· ≠ ',') = digits
  groups : ∃ first rest, text.splitOn ',' = first :: rest ∧
    (1 ≤ first.length ∧ first.length ≤ 3) ∧ ∀ group ∈ rest, group.length = 3

variable {text : List Char}

theorem filter_separate (htext : ',' ∉ text) : (separate text).filter (· ≠ ',') = text := by
  induction text with
  | nil => rfl
  | cons digit rest ih =>
      obtain ⟨hdigit, hrest⟩ := List.ne_and_not_mem_of_not_mem_cons htext
      have hothers := ih hrest
      rw [separate]
      split
      · simpa [hdigit.symm] using hothers
      · simpa [hdigit.symm] using hothers

/-- The first group has what is left of the digits when groups of three are taken off behind. -/
theorem splitOn_separate (hne : text ≠ []) (htext : ',' ∉ text) :
    ∃ first rest, (separate text).splitOn ',' = first :: rest ∧
      first.length = (text.length + 2) % 3 + 1 ∧ ∀ group ∈ rest, group.length = 3 := by
  induction text with
  | nil => exact absurd rfl hne
  | cons digit rest ih =>
      obtain ⟨hdigit, hrest⟩ := List.ne_and_not_mem_of_not_mem_cons htext
      have hkept : ¬(digit == ',') = true := by simpa using hdigit.symm
      by_cases hlast : rest = []
      · subst hlast
        refine ⟨[digit], [], ?_, by simp, List.forall_mem_nil _⟩
        simp [separate, List.splitOn_cons_eq_if_modifyHead, hkept]
      obtain ⟨first, groups, hsplit, hlength, hgroups⟩ := ih hlast hrest
      rw [separate, List.length_cons]
      split
      next hfull =>
        -- a comma stands behind the digit, and all that follows is made of whole groups
        refine ⟨[digit], first :: groups, ?_, ?_, List.forall_mem_cons.mpr ⟨?_, hgroups⟩⟩
        · simp [List.splitOn_cons_eq_if_modifyHead, hkept, hsplit]
        · rw [List.length_singleton]
          omega
        · omega
      next hpart =>
        have hpart : rest.length % 3 ≠ 0 := fun hzero => hpart ⟨hzero, hlast⟩
        refine ⟨digit :: first, groups, ?_, ?_, hgroups⟩
        · simp [List.splitOn_cons_eq_if_modifyHead, hkept, hsplit]
        · rw [List.length_cons]
          omega

theorem isGrouped_separate (hne : text ≠ []) (htext : ',' ∉ text) :
    IsGrouped text (separate text) := by
  obtain ⟨first, rest, hsplit, hlength, hgroups⟩ := splitOn_separate hne htext
  have hlt : (text.length + 2) % 3 < 3 := Nat.mod_lt _ (by decide)
  exact ⟨filter_separate htext, first, rest, hsplit, by omega, hgroups⟩

/-- So are the digits of a number. -/
theorem isGrouped_grouped (n : Nat) : IsGrouped (digits n) (grouped n).toList := by
  rw [grouped, String.toList_ofList]
  refine isGrouped_separate Nat.toDigits_ne_nil fun hcomma => ?_
  exact absurd (isDigit_digits n ',' hcomma) (by decide)

example : (grouped 18446744073709551615).toList = "18,446,744,073,709,551,615".toList := by
  decide

end TimingReport.Decimal
