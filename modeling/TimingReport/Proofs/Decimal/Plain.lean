import TimingReport.Proofs.Decimal.Shortest

/-!
# Plain texts of numbers

The plain text of a number is a sign, digits, and a point where one is needed. Read as a decimal
and rounded once it gives the number back, whichever number it is.
-/

namespace TimingReport.Decimal

open Binary64

/-! ## Reading -/

/-- The text consists of digits and is not empty. -/
def areDigits (text : List Char) : Bool := !text.isEmpty && text.all Char.isDigit

/-- The number of the given sign that is nearest to a decimal, written with or without a point
and without an exponent. -/
def readUnsigned? (negative : Bool) (text : List Char) : Option Binary64 :=
  if text = ['i', 'n', 'f'] then some (.infinite negative)
  else
    match text.splitOn '.' with
    | [whole] =>
        if areDigits whole then some (.ofUnits negative (count whole * unit) 1) else none
    | [whole, places] =>
        if areDigits whole && areDigits places then
          some (.ofUnits negative (count (whole ++ places) * unit) (Nat.pow 10 places.length))
        else none
    | _ => none

/-- The number nearest to a decimal that may have a minus in front. -/
def read? (text : String) : Option Binary64 :=
  match text.toList with
  | '-' :: rest => readUnsigned? true rest
  | rest => readUnsigned? false rest

/-- Digits with or without a point write a quotient. -/
inductive Spells : List Char → Nat → Nat → Prop
  | whole {text : List Char} (hne : text ≠ []) (hdigits : ∀ c ∈ text, c.isDigit) :
      Spells text (count text) 1
  | pointed {whole places : List Char} (hwhole : whole ≠ []) (hplaces : places ≠ [])
      (hdigits : ∀ c ∈ whole ++ places, c.isDigit) :
      Spells (whole ++ '.' :: places) (count (whole ++ places)) (Nat.pow 10 places.length)

variable {text : List Char} {num den : Nat}

theorem areDigits_iff : areDigits text ↔ text ≠ [] ∧ ∀ c ∈ text, c.isDigit := by
  simp [areDigits]

theorem point_notMem (hdigits : ∀ c ∈ text, c.isDigit) : '.' ∉ text := fun hmem =>
  absurd (hdigits '.' hmem) (by decide)

theorem Spells.den_pos (hspells : Spells text num den) : 0 < den := by
  cases hspells with
  | whole => exact Nat.one_pos
  | pointed => exact Nat.pow_pos (by decide)

/-- A digit comes first, so it is neither a sign nor a word. -/
theorem Spells.exists_cons (hspells : Spells text num den) :
    ∃ first rest, text = first :: rest ∧ first.isDigit := by
  cases hspells with
  | whole hne hdigits =>
      obtain ⟨first, rest, rfl⟩ := List.exists_cons_of_ne_nil hne
      exact ⟨first, rest, rfl, hdigits first List.mem_cons_self⟩
  | pointed hwhole _ hdigits =>
      obtain ⟨first, rest, rfl⟩ := List.exists_cons_of_ne_nil hwhole
      exact ⟨first, _, rfl, hdigits first List.mem_cons_self⟩

theorem Spells.readUnsigned? (hspells : Spells text num den) (negative : Bool) :
    readUnsigned? negative text = some (.ofUnits negative (num * unit) den) := by
  obtain ⟨first, rest, hfirst, hdigit⟩ := hspells.exists_cons
  have hword : text ≠ ['i', 'n', 'f'] := by
    rintro rfl
    cases hfirst
    exact absurd hdigit (by decide)
  rw [Decimal.readUnsigned?, if_neg hword]
  cases hspells with
  | whole hne hdigits =>
      have hsplit : text.splitOn '.' = [text] := by
        have hsplit := List.splitOn_intercalate '.'
          (List.forall_mem_singleton.mpr (point_notMem hdigits)) (List.cons_ne_nil text [])
        rwa [List.intercalate_singleton] at hsplit
      rw [hsplit]
      dsimp only
      rw [if_pos (areDigits_iff.mpr ⟨hne, hdigits⟩)]
  | @pointed whole places hwhole hplaces hdigits =>
      obtain ⟨hdigitsWhole, hdigitsPlaces⟩ := List.forall_mem_append.mp hdigits
      have hsplit : (whole ++ '.' :: places).splitOn '.' = [whole, places] := by
        have hsplit := List.splitOn_intercalate '.' (List.forall_mem_cons.mpr
          ⟨point_notMem hdigitsWhole, List.forall_mem_singleton.mpr (point_notMem hdigitsPlaces)⟩)
          (List.cons_ne_nil whole [places])
        simpa using hsplit
      rw [hsplit]
      dsimp only
      rw [if_pos]
      rw [areDigits_iff.mpr ⟨hwhole, hdigitsWhole⟩, areDigits_iff.mpr ⟨hplaces, hdigitsPlaces⟩]
      rfl

/-- A text that does not start with a minus is read with the sign that is put in front. -/
theorem read?_sign {first : Char} (hfirst : first ≠ '-') (rest : List Char) (negative : Bool) :
    read? (if negative then "-" ++ String.ofList (first :: rest)
      else String.ofList (first :: rest)) = readUnsigned? negative (first :: rest) := by
  cases negative with
  | true =>
      have htext : ("-" ++ String.ofList (first :: rest)).toList = '-' :: first :: rest := by
        simp
      rw [if_pos rfl, read?, htext]
      rfl
  | false =>
      rw [if_neg Bool.false_ne_true, read?, String.toList_ofList]
      split
      · next heq => exact absurd (List.cons.inj heq).1 hfirst
      · rfl

/-! ## Positional notation -/

theorem count_replicate_zero (n : Nat) : count (List.replicate n '0') = 0 := by
  rw [count_eq, Nat.ofDigitChars_replicate_zero, Nat.mul_zero]

theorem isDigit_replicate_zero (n : Nat) : ∀ c ∈ List.replicate n '0', c.isDigit := by
  intro c hc
  rw [List.eq_of_mem_replicate hc]
  decide

section Digits

variable {digits : List Char} (hne : digits ≠ []) (hdigits : ∀ c ∈ digits, c.isDigit)
include hne hdigits

/-- All digits stand behind the point, with zeros between. -/
theorem spells_behind_point (zeros : Nat) :
    Spells ('0' :: '.' :: (List.replicate zeros '0' ++ digits)) (count digits)
      (Nat.pow 10 (zeros + digits.length)) := by
  have hplaces : List.replicate zeros '0' ++ digits ≠ [] := by simp [hne]
  have hspells := Spells.pointed (List.cons_ne_nil '0' []) hplaces
    (List.forall_mem_append.mpr ⟨List.forall_mem_singleton.mpr rfl, List.forall_mem_append.mpr
      ⟨isDigit_replicate_zero zeros, hdigits⟩⟩)
  have hcount : count (['0'] ++ (List.replicate zeros '0' ++ digits)) = count digits := by
    rw [← List.append_assoc, count_append, ← List.replicate_one, ← List.replicate_add,
      count_replicate_zero, Nat.zero_mul, Nat.zero_add]
  rwa [hcount, List.length_append, List.length_replicate] at hspells

/-- All digits stand before the point, which is left out, with zeros between. -/
theorem spells_before_point (zeros : Nat) :
    Spells (digits ++ List.replicate zeros '0') (count digits * Nat.pow 10 zeros) 1 := by
  have hspells := @Spells.whole (digits ++ List.replicate zeros '0') (by simp [hne])
    (List.forall_mem_append.mpr ⟨hdigits, isDigit_replicate_zero zeros⟩)
  rwa [count_append, count_replicate_zero, List.length_replicate, Nat.add_zero] at hspells

omit hne in
/-- The point stands among the digits. -/
theorem spells_around_point {before : Nat} (hpos : 0 < before) (hlt : before < digits.length) :
    Spells (digits.take before ++ '.' :: digits.drop before) (count digits)
      (Nat.pow 10 (digits.length - before)) := by
  have hfront : digits.take before ≠ [] := by
    rw [← List.length_pos_iff, List.length_take]
    omega
  have hback : digits.drop before ≠ [] := by
    rw [← List.length_pos_iff, List.length_drop]
    omega
  have hall : ∀ c ∈ digits.take before ++ digits.drop before, c.isDigit := by
    rwa [List.take_append_drop]
  have hspells := Spells.pointed hfront hback hall
  rwa [List.take_append_drop, List.length_drop] at hspells

end Digits

/-- The positional text writes the value of a decimal. -/
theorem positional_spells {d : Shortest} (hne : d.digits ≠ [])
    (hdigits : ∀ c ∈ d.digits, c.isDigit) : ∃ num den, Spells (positional d) num den ∧
      num * Nat.pow 10 (d.digits.length - d.exponent).toNat =
        count d.digits * Nat.pow 10 (d.exponent - d.digits.length).toNat * den := by
  obtain ⟨digits, exponent⟩ := d
  dsimp only at hne hdigits ⊢
  unfold positional
  dsimp only
  split_ifs with hsmall hlarge
  · have hup : (exponent - digits.length).toNat = 0 := by omega
    have hdown : (digits.length - exponent).toNat = (-exponent).toNat + digits.length := by omega
    refine ⟨_, _, spells_behind_point hne hdigits (-exponent).toNat, ?_⟩
    rw [hup, hdown, Nat.pow, Nat.mul_one]
  · have hdown : (digits.length - exponent).toNat = 0 := by omega
    refine ⟨_, _, spells_before_point hne hdigits (exponent - digits.length).toNat, ?_⟩
    rw [hdown, Nat.pow, Nat.mul_one]
  · have hup : (exponent - digits.length).toNat = 0 := by omega
    have hdown : (digits.length - exponent).toNat = digits.length - exponent.toNat := by omega
    refine ⟨_, _, spells_around_point hdigits (by omega) (by omega), ?_⟩
    rw [hup, hdown, Nat.pow, Nat.mul_one]

/-! ## Reading back -/

/-- Zeros are all that is dropped behind the digits. -/
theorem exists_rdropWhile_zero (text : List Char) :
    ∃ zeros, text = text.rdropWhile (· == '0') ++ List.replicate zeros '0' := by
  have hdropped : text.rtakeWhile (· == '0') =
      List.replicate (text.rtakeWhile (· == '0')).length '0' := by
    refine List.eq_replicate_iff.mpr ⟨rfl, fun c hc => ?_⟩
    have hzero := @List.mem_rtakeWhile_imp _ (· == '0') text c hc
    exact beq_iff_eq.mp hzero
  refine ⟨(text.rtakeWhile (· == '0')).length, ?_⟩
  rw [← hdropped, List.rdropWhile_append_rtakeWhile]

/-- A value that is a quotient of powers of ten apart is the same value over other powers. -/
theorem mul_eq_of_exponents {num den coefficient zeros up down above below : Nat}
    (hvalue : num * Nat.pow 10 below = coefficient * Nat.pow 10 above * den)
    (hexponents : zeros + up + below = above + down) :
    num * Nat.pow 10 down = coefficient * Nat.pow 10 zeros * Nat.pow 10 up * den := by
  have hpos : 0 < Nat.pow 10 below := Nat.pow_pos (by decide)
  refine Nat.mul_right_cancel hpos ?_
  calc num * Nat.pow 10 down * Nat.pow 10 below
      = num * Nat.pow 10 below * Nat.pow 10 down := Nat.mul_right_comm ..
    _ = coefficient * (Nat.pow 10 above * Nat.pow 10 down) * den := by
        rw [hvalue, Nat.mul_right_comm, Nat.mul_assoc coefficient]
    _ = coefficient * (Nat.pow 10 zeros * Nat.pow 10 up * Nat.pow 10 below) * den := by
        rw [Shortest.pow_ten_mul, Shortest.pow_ten_mul, Shortest.pow_ten_mul, hexponents]
    _ = coefficient * Nat.pow 10 zeros * Nat.pow 10 up * den * Nat.pow 10 below := by
        rw [Nat.mul_right_comm _ den, Nat.mul_assoc coefficient (Nat.pow 10 zeros),
          ← Nat.mul_assoc coefficient]

/-- What the search finds for a pattern is written with a value that is rounded to it. -/
theorem exists_spells_ofPattern {pattern : Nat} (hpos : 0 < pattern)
    (hfinite : pattern < infinity) : ∃ num den, Spells (positional (.ofPattern pattern)) num den ∧
      Binary64.nearest (num * unit) den = pattern := by
  obtain ⟨grid, point, hpoint, hpattern⟩ := Shortest.exists_point hpos
  have hnearest := Shortest.nearest_of_onGrid? hpos hfinite hpoint
  obtain ⟨zeros, htext⟩ := exists_rdropWhile_zero (digits point)
  rw [hpattern]
  generalize Shortest.exponentOf (unitsOf pattern) = exponent at hnearest ⊢
  generalize (digits point).rdropWhile (· == '0') = kept at htext ⊢
  have hpointEq : point = count kept * Nat.pow 10 zeros := by
    rw [← count_digits point, htext, count_append, count_replicate_zero, List.length_replicate,
      Nat.add_zero]
  have hlength : (digits point).length = kept.length + zeros := by
    rw [htext, List.length_append, List.length_replicate]
  have hdigits : ∀ c ∈ kept, c.isDigit := fun c hc =>
    isDigit_digits point c (htext ▸ List.mem_append_left _ hc)
  have hne : kept ≠ [] := by
    -- the point would be zero, and zero is rounded to itself
    rintro rfl
    have hzero := nearest_unitsOf_mul 0 (Shortest.parts_pos exponent grid)
    rw [unitsOf_zero, Nat.zero_mul, Nat.zero_min] at hzero
    have hpointZero : point = 0 := hpointEq.trans (Nat.zero_mul _)
    rw [hpointZero, Nat.zero_mul, Nat.zero_mul, hzero] at hnearest
    exact hpos.ne hnearest
  obtain ⟨num, den, hspells, hvalue⟩ :=
    @positional_spells ⟨kept, exponent + (digits point).length - grid⟩ hne hdigits
  refine ⟨num, den, hspells, ?_⟩
  rw [← hnearest]
  refine nearest_congr hspells.den_pos (Shortest.parts_pos _ _) ?_
  dsimp only at hvalue
  have hmul := @mul_eq_of_exponents num den (count kept) zeros (exponent - grid).toNat
    (grid - exponent).toNat _ _ hvalue (by omega)
  rw [← hpointEq] at hmul
  rw [Shortest.parts, Nat.mul_right_comm, hmul, Nat.mul_right_comm _ unit]

/-- The positional text of a finite magnitude writes a value that is rounded to it. -/
theorem exists_spells_magnitude {x : Binary64} (hx : x.isFinite) : ∃ num den,
    Spells (if x.magnitude == 0 then ['0'] else positional (.ofPattern x.magnitude)) num den ∧
      Binary64.nearest (num * unit) den = x.magnitude := by
  by_cases hzero : x.magnitude = 0
  · have hnearest := nearest_unitsOf_mul 0 Nat.one_pos
    rw [unitsOf_zero, Nat.zero_mul, Nat.zero_min] at hnearest
    have hcount : count ['0'] = 0 := by decide
    refine ⟨count ['0'], 1, ?_, ?_⟩
    · rw [if_pos (beq_iff_eq.mpr hzero)]
      exact .whole (List.cons_ne_nil _ _) (List.forall_mem_singleton.mpr rfl)
    · rw [hcount, Nat.zero_mul, hnearest, hzero]
  · rw [if_neg (by simpa using hzero)]
    exact exists_spells_ofPattern (Nat.pos_of_ne_zero hzero) (of_decide_eq_true hx)

/-- The plain text of a number is read back as the number. -/
theorem read?_plain {x : Binary64} (hx : ¬x.isNaN) : read? (plain x) = some x := by
  rw [plain, signed, if_neg hx]
  dsimp only
  by_cases hinfinite : x.isInfinite
  · rw [if_pos hinfinite]
    refine (read?_sign (by decide) ['n', 'f'] x.negative).trans ?_
    rw [readUnsigned?, if_pos rfl, infinite]
    congr
    exact (beq_iff_eq.mp hinfinite).symm
  · rw [if_neg hinfinite]
    have hfinite : x.isFinite := by
      simp only [isNaN, isInfinite, isFinite, decide_eq_true_eq, beq_iff_eq] at hx hinfinite ⊢
      exact Nat.lt_of_le_of_ne (Nat.not_lt.mp hx) hinfinite
    obtain ⟨num, den, hspells, hnearest⟩ := exists_spells_magnitude hfinite
    have hread := hspells.readUnsigned? x.negative
    obtain ⟨first, rest, htext, hdigit⟩ := hspells.exists_cons
    have hminus : first ≠ '-' := by
      rintro rfl
      exact absurd hdigit (by decide)
    rw [htext, read?_sign hminus, ← htext, hread, ofUnits]
    congr

/-- No number is written as an empty text. -/
theorem plain_ne_empty (x : Binary64) : plain x ≠ "" := by
  by_cases hx : x.isNaN
  · rw [plain, signed, if_pos hx]
    decide
  · intro hempty
    have hread := read?_plain hx
    rw [hempty] at hread
    cases hread

end TimingReport.Decimal
