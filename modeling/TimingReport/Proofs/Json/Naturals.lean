import TimingReport.Proofs.Json.Writing

/-!
# Whole numbers as natural numbers

A whole number is read as a natural number of so many bits exactly if it has no sign and is
below the bound, however many digits it has. It is not wrapped and not rounded: digits that no
longer fit the count make it a real number, which is refused.
-/

namespace TimingReport.Json

/-- A whole number with a sign or without one. -/
def signed (negative : Bool) (whole : Symbols) : Symbols :=
  if negative then some '-' :: whole else whole

/-- The natural number that digits write. -/
def wholeValue (whole : Symbols) : Nat :=
  (whole.map digitValue).foldl (fun n d => n * 10 + d) 0

variable {bits a : Nat} {negative : Bool} {whole : Symbols} {digits : List Char}

theorem wholeValue_map_some (digits : List Char) :
    wholeValue (digits.map some) = Decimal.count digits := foldl_digitValue digits

/-- A whole number is written in the only way in which its value is. -/
theorem digits_count_of_whole (hwhole : Whole (digits.map some)) :
    Decimal.digits (Decimal.count digits) = digits := by
  generalize htext : digits.map some = text at hwhole
  cases hwhole with
  | zero =>
      obtain ⟨c, rfl, hc⟩ := List.map_eq_singleton_iff.mp htext
      obtain rfl := Option.some.inj hc
      rfl
  | digits hfirst hdigits =>
      obtain ⟨c, rest, rfl, rfl, rfl⟩ := List.map_eq_cons_iff.mp htext
      refine Decimal.digits_count (fun hzero => hfirst (congrArg some hzero)) fun d hd => ?_
      exact hdigits.2 (some d) (List.mem_map_of_mem hd)

theorem value_signed (hwhole : Whole whole) : Value (signed negative whole) := by
  cases negative with
  | false => exact .unsigned hwhole.unsigned
  | true => exact .negative hwhole.unsigned

theorem signed_ne_null (hwhole : Whole whole) : signed negative whole ≠ nullText := by
  cases negative with
  | false =>
      obtain ⟨d, rest, rfl, hdigit⟩ := hwhole.exists_digit
      intro heq
      obtain ⟨rfl, -⟩ := List.cons.inj heq
      exact absurd hdigit (by decide)
  | true => simp [signed, nullText]

theorem number_signed (wanted : String) (hwhole : Whole whole) (rest : Symbols) :
    number wanted (signed negative whole ++ rest) = readUnsigned (!negative) (whole ++ rest) := by
  cases negative with
  | true => rfl
  | false =>
      refine (number_unsigned wanted hwhole.unsigned rest).trans ?_
      obtain ⟨d, digits, rfl, hdigit⟩ := hwhole.exists_digit
      exact readNumber_of_digit hdigit _

/-! ## Numbers -/

/-- If no digits are left, all of them were counted. -/
theorem fst_gather {count : Nat} {digits : List Nat} (hall : (gather count digits).2 = []) :
    (gather count digits).1 = digits.foldl (fun n d => n * 10 + d) count := by
  induction digits generalizing count with
  | nil => rfl
  | cons d digits ih =>
      rw [gather] at hall ⊢
      split at hall
      next => exact absurd hall (List.cons_ne_nil _ _)
      next hfits =>
        rw [if_neg hfits]
        exact ih hall

theorem toNatural_eq_ok_iff {number : Number} :
    number.toNatural bits = .ok a ↔ number = .integer a ∧ a < Nat.pow 2 bits := by
  cases number with
  | real x => simp [Number.toNatural]
  | integer n =>
      rw [Number.toNatural, Number.integer.injEq]
      constructor
      · intro hnatural
        split at hnatural
        next hbounds =>
          obtain rfl := Except.ok.inj hnatural
          exact ⟨(Int.toNat_of_nonneg hbounds.1).symm, hbounds.2⟩
        next => contradiction
      · rintro ⟨rfl, hlt⟩
        rw [if_pos ⟨Int.natCast_nonneg a, by rwa [Int.toNat_natCast]⟩, Int.toNat_natCast]

/-- What is read as a natural number has no sign, and it is what its digits write. -/
theorem eq_of_readUnsigned (hwhole : Whole whole) {positive : Bool} {rest left : Symbols}
    (hrest : Ends rest) (hread : readUnsigned positive (whole ++ rest) = .ok (.integer a, left)) :
    positive = true ∧ a = wholeValue whole := by
  rw [readUnsigned_whole hwhole hrest.noDigit, readTail_ends positive _ _ hrest] at hread
  split at hread
  next hall =>
    have hcount := fst_gather (List.length_eq_zero_iff.mp hall)
    obtain ⟨hnumber, -⟩ := Prod.mk.inj (Except.ok.inj hread)
    cases positive with
    | true =>
        obtain hcast := Number.integer.inj hnumber
        exact ⟨rfl, (Int.ofNat_inj.mp hcast).symm.trans hcount⟩
    | false =>
        -- the integers with a sign are below zero
        simp only [wholeNumber, Bool.false_eq_true, if_false] at hnumber
        split at hnumber
        next hbounds =>
          have hcast := Number.integer.inj hnumber
          omega
        next => contradiction
  next =>
    obtain ⟨x, -, hx⟩ := Outcome.map_eq_ok_iff.mp hread
    cases (Prod.mk.inj hx).1

/-! ## Natural numbers -/

theorem reads_natural_iff {value : Symbols} (hvalue : Value value) : Reads (natural bits) value a ↔
    Reads (number ("u" ++ toString bits)) value (.integer a) ∧ a < Nat.pow 2 bits := by
  rw [natural_eq, (local_number _).reads_convert_iff hvalue]
  simp only [toNatural_eq_ok_iff]
  constructor
  · rintro ⟨_, hreads, rfl, hlt⟩
    exact ⟨hreads, hlt⟩
  · rintro ⟨hreads, hlt⟩
    exact ⟨_, hreads, rfl, hlt⟩

/-- A whole number is read as what its digits write, if that has no sign and fits. -/
theorem reads_natural_signed_iff (hwhole : Whole whole) (hbits : Nat.pow 2 bits ≤ maxCount + 1) :
    Reads (natural bits) (signed negative whole) a ↔
      negative = false ∧ a = wholeValue whole ∧ a < Nat.pow 2 bits := by
  rw [reads_natural_iff (value_signed hwhole), ← and_assoc]
  refine and_congr_left fun hlt => ⟨fun hreads => ?_, ?_⟩
  · have hread := hreads [] ends_nil
    rw [number_signed _ hwhole] at hread
    obtain ⟨hsign, hvalue⟩ := eq_of_readUnsigned hwhole ends_nil hread
    exact ⟨by simpa using hsign, hvalue⟩
  · rintro ⟨rfl, rfl⟩ rest hrest
    have hfits : wholeValue whole ≤ maxCount := Nat.le_of_lt_succ (hlt.trans_le hbits)
    exact (number_unsigned _ hwhole.unsigned rest).trans (readNumber_whole hwhole rfl hfits hrest)

end TimingReport.Json
