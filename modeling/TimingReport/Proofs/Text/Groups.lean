import Mathlib.Algebra.Group.Nat.Defs
import TimingReport.Proofs.Text.Utf8

/-!
# Bytes in groups

Whatever bytes are given, they fall into groups of which each is one symbol: a byte of ASCII, the
bytes of any other character, or a byte that belongs to no character. Where a group ends depends
on the bytes up to the next one that continues no sequence.
-/

namespace TimingReport.Text.Utf8

/-! ## One symbol after the other -/

theorem symbolsFrom_eq (read : List (Option Char)) (skip : Nat) (bytes : List UInt8) :
    symbolsFrom read skip bytes = read.reverse ++ symbols (bytes.drop skip) := by
  induction bytes generalizing read skip with
  | nil => cases skip <;> simp [symbolsFrom, symbols]
  | cons b bytes ih =>
      cases skip with
      | succ skip => exact ih read skip
      | zero =>
          rw [List.drop_zero, symbols, symbolsFrom, symbolsFrom]
          split
          next => rw [ih, ih [_], List.reverse_cons, List.append_assoc]; rfl
          next => rw [ih, ih [_], List.reverse_cons, List.append_assoc]; rfl

theorem symbols_nil : symbols [] = [] := rfl

theorem symbols_cons_of_some {b : UInt8} {rest : List UInt8} {c : Char} {count : Nat}
    (hfront : front? (b :: rest) = some (c, count)) :
    symbols (b :: rest) = some c :: symbols (rest.drop count) := by
  rw [symbols, symbolsFrom, hfront]
  exact symbolsFrom_eq [some c] count rest

theorem symbols_cons_of_none {b : UInt8} {rest : List UInt8} (hfront : front? (b :: rest) = none) :
    symbols (b :: rest) = none :: symbols rest := by
  rw [symbols, symbolsFrom, hfront]
  exact symbolsFrom_eq [none] 0 rest

theorem symbols_cons_ascii {b : UInt8} (hascii : b < 0x80) (rest : List UInt8) :
    symbols (b :: rest) = some (Char.ofNat b.toNat) :: symbols rest := by
  have hfront : front? (b :: rest) = some (Char.ofNat b.toNat, 0) := if_pos hascii
  rw [symbols_cons_of_some hfront, List.drop_zero]

/-- The bytes of a character are one symbol, whatever follows. -/
theorem symbols_utf8EncodeChar_append (c : Char) (rest : List UInt8) :
    symbols (String.utf8EncodeChar c ++ rest) = some c :: symbols rest := by
  have hfront := front?_utf8EncodeChar c rest
  have hpos : 0 < (String.utf8EncodeChar c).length := by
    rw [String.length_utf8EncodeChar]
    exact Char.utf8Size_pos c
  cases hencode : String.utf8EncodeChar c with
  | nil => simp [hencode] at hpos
  | cons lead more =>
      rw [hencode, List.cons_append] at hfront
      rw [List.cons_append, symbols_cons_of_some hfront, List.length_cons, Nat.add_sub_cancel,
        List.drop_left]

/-! ## The character at the front -/

theorem combine_lt (bits : Nat) (continuations : List UInt8) :
    combine bits continuations < (bits + 1) * 64 ^ continuations.length := by
  induction continuations generalizing bits with
  | nil => simp [combine]
  | cons b continuations ih =>
      have hnext : bits * 64 + b.toNat % 64 + 1 ≤ (bits + 1) * 64 := by omega
      refine Nat.lt_of_lt_of_le (ih (bits * 64 + b.toNat % 64)) ?_
      rw [List.length_cons, Nat.pow_succ', ← Nat.mul_assoc]
      exact Nat.mul_le_mul_right _ hnext

/-- What continues a sequence are continuation bytes, and its character needs them all. -/
theorem of_sequence? {bits count least n : Nat} {rest : List UInt8} {c : Char}
    (hsequence : sequence? bits count least rest = some (c, n)) :
    n = count ∧ (rest.take count).length = count ∧ (rest.take count).all isContinuation ∧
      least ≤ c.toNat ∧ c.toNat < (bits + 1) * 64 ^ count := by
  unfold sequence? at hsequence
  dsimp only at hsequence
  rw [Option.ite_none_right_eq_some, Option.ite_none_right_eq_some,
    Option.dite_none_right_eq_some, Bool.and_eq_true, decide_eq_true_eq] at hsequence
  obtain ⟨hall, hleast, _, hsome⟩ := hsequence
  obtain ⟨rfl, rfl⟩ := Prod.mk.inj (Option.some.inj hsome)
  have hlt := combine_lt bits (rest.take count)
  rw [hall.1] at hlt
  exact ⟨rfl, hall.1, hall.2, hleast, hlt⟩

/-- A byte of ASCII is a character of its own. Any other character is outside of ASCII, and its
continuation bytes are as many as it needs. -/
theorem of_front? {b : UInt8} {rest : List UInt8} {c : Char} {count : Nat}
    (hfront : front? (b :: rest) = some (c, count)) :
    (b < 0x80 ∧ c = Char.ofNat b.toNat ∧ count = 0) ∨
    (0x80 ≤ c.toNat ∧ c.utf8Size = count + 1 ∧ (rest.take count).length = count ∧
      (rest.take count).all isContinuation) := by
  have hsize : c.utf8Size = if c.toNat ≤ 0x7F then 1 else if c.toNat ≤ 0x7FF then 2
      else if c.toNat ≤ 0xFFFF then 3 else 4 := rfl
  have hmod : ∀ n, 0 < n → b.toNat % n < n := fun n hn => Nat.mod_lt _ hn
  dsimp only [front?] at hfront
  split_ifs at hfront with hascii htwo hthree hfour
  · obtain ⟨rfl, rfl⟩ := Prod.mk.inj (Option.some.inj hfront)
    exact .inl ⟨hascii, rfl, rfl⟩
  all_goals
    obtain ⟨rfl, hlength, hall, hleast, hlt⟩ := of_sequence? hfront
    refine .inr ⟨by omega, ?_, hlength, hall⟩
    rw [hsize]
  · have := hmod 32 (by decide)
    split_ifs <;> omega
  · have := hmod 16 (by decide)
    split_ifs <;> omega
  · split_ifs <;> omega

/-! ## Groups -/

/-- The symbol is outside of ASCII, or no character at all. -/
def IsForeign (s : Option Char) : Prop := ∀ c ∈ s, 0x80 ≤ c.toNat

theorem IsForeign.ne {s : Option Char} (hs : IsForeign s) {c : Char} (hc : c.toNat < 0x80) :
    s ≠ some c := by
  rintro rfl
  exact absurd (hs c rfl) (Nat.not_le.mpr hc)

/-- A byte outside of ASCII begins a group that is one symbol. -/
theorem symbols_cons_foreign {b : UInt8} (hforeign : 0x80 ≤ b) (bytes : List UInt8) :
    ∃ group rest s, b :: bytes = group ++ rest ∧ group ≠ [] ∧ (∀ b ∈ group, 0x80 ≤ b) ∧
      IsForeign s ∧ width [s] = group.length ∧ symbols (b :: bytes) = s :: symbols rest := by
  cases hfront : front? (b :: bytes) with
  | none =>
      exact ⟨[b], bytes, none, rfl, List.cons_ne_nil _ _, by simpa using hforeign,
        by simp [IsForeign], rfl, symbols_cons_of_none hfront⟩
  | some found =>
      obtain ⟨c, count⟩ := found
      rcases of_front? hfront with ⟨hascii, -, -⟩ | ⟨hc, hsize, hlength, hall⟩
      · exact absurd hforeign (UInt8.not_le.mpr hascii)
      · refine ⟨b :: bytes.take count, bytes.drop count, some c, by simp, List.cons_ne_nil _ _, ?_,
          by simpa [IsForeign] using hc, ?_, symbols_cons_of_some hfront⟩
        · refine List.forall_mem_cons.mpr ⟨hforeign, fun next hnext => ?_⟩
          have hnext := List.all_eq_true.mp hall next hnext
          rw [isContinuation, Bool.and_eq_true, decide_eq_true_eq] at hnext
          exact hnext.1
        · rw [List.length_cons, hlength, ← hsize]
          exact Nat.zero_add _

theorem toNat_ofNat_byte (b : UInt8) : (Char.ofNat b.toNat).toNat = b.toNat := by
  have hlt := b.toNat_lt
  have hvalid : b.toNat.isValidChar := .inl (by omega)
  rw [Char.ofNat, dif_pos hvalid]
  rfl

theorem utf8Size_ofNat_ascii {b : UInt8} (hascii : b < 0x80) :
    (Char.ofNat b.toNat).utf8Size = 1 := by
  have hlt : b.toNat < 0x80 := UInt8.lt_iff_toNat_lt.mp hascii
  have hle : (Char.ofNat b.toNat).toNat ≤ 0x7F := by
    rw [toNat_ofNat_byte]
    omega
  exact if_pos hle

/-- What holds of no bytes, of a byte of ASCII before others and of a group before others, holds
of all bytes. -/
@[elab_as_elim]
theorem groups_induction {motive : List UInt8 → Prop} (bytes : List UInt8) (nil : motive [])
    (ascii : ∀ b rest, b < 0x80 → motive rest → motive (b :: rest))
    (foreign : ∀ group rest s, group ≠ [] → (∀ b ∈ group, 0x80 ≤ b) → IsForeign s →
      width [s] = group.length → symbols (group ++ rest) = s :: symbols rest →
      motive rest → motive (group ++ rest)) : motive bytes := by
  induction hlength : bytes.length using Nat.strongRecOn generalizing bytes with
  | _ n ih =>
      subst hlength
      cases bytes with
      | nil => exact nil
      | cons b bytes =>
          by_cases hascii : b < 0x80
          · exact ascii b bytes hascii (ih _ (Nat.lt_succ_self _) bytes rfl)
          · obtain ⟨group, rest, s, hbytes, hgroup, hall, hs, hwidth, hsymbols⟩ :=
              symbols_cons_foreign (UInt8.not_lt.mp hascii) bytes
            have hpos := List.length_pos_iff.mpr hgroup
            rw [hbytes] at hsymbols ih ⊢
            refine foreign group rest s hgroup hall hs hwidth hsymbols (ih _ ?_ rest rfl)
            rw [List.length_append]
            omega

theorem width_symbols (bytes : List UInt8) : width (symbols bytes) = bytes.length := by
  induction bytes using groups_induction with
  | nil => rfl
  | ascii b rest hascii ih =>
      have hsize : width [some (Char.ofNat b.toNat)] = 1 :=
        (Nat.zero_add _).trans (utf8Size_ofNat_ascii hascii)
      rw [symbols_cons_ascii hascii, ← List.singleton_append, width_append, ih, hsize,
        List.length_cons, Nat.add_comm]
  | foreign group rest s _ _ _ hwidth hsymbols ih =>
      rw [hsymbols, ← List.singleton_append, width_append, hwidth, ih, List.length_append]

/-- A symbol of bytes is outside of ASCII, or it is one of the bytes. -/
theorem of_mem_symbols {s : Option Char} {bytes : List UInt8} (hs : s ∈ symbols bytes) :
    IsForeign s ∨ ∃ b ∈ bytes, s = some (Char.ofNat b.toNat) := by
  induction bytes using groups_induction with
  | nil => cases hs
  | ascii b rest hascii ih =>
      rw [symbols_cons_ascii hascii] at hs
      rcases List.mem_cons.mp hs with rfl | hs
      · exact .inr ⟨b, List.mem_cons_self, rfl⟩
      · exact (ih hs).imp_right fun ⟨b, hb, heq⟩ => ⟨b, List.mem_cons_of_mem _ hb, heq⟩
  | foreign group rest t _ _ ht _ hsymbols ih =>
      rw [hsymbols] at hs
      rcases List.mem_cons.mp hs with rfl | hs
      · exact .inl ht
      · exact (ih hs).imp_right fun ⟨b, hb, heq⟩ => ⟨b, List.mem_append_right _ hb, heq⟩

/-! ## Interruptions -/

theorem front?_continuation {b : UInt8} (hcontinuation : isContinuation b) (rest : List UInt8) :
    front? (b :: rest) = none := by
  simp only [isContinuation, Bool.and_eq_true, decide_eq_true_eq, UInt8.le_iff_toNat_le,
    UInt8.lt_iff_toNat_lt] at hcontinuation
  obtain ⟨hle, hlt⟩ := hcontinuation
  change 0x80 ≤ b.toNat at hle
  change b.toNat < 0xC0 at hlt
  simp only [front?, UInt8.le_iff_toNat_le, UInt8.lt_iff_toNat_lt, Bool.and_eq_true,
    decide_eq_true_eq]
  split_ifs with hascii htwo hthree hfour
  · change b.toNat < 0x80 at hascii
    omega
  · have hle : 0xC0 ≤ b.toNat := htwo.1
    omega
  · have hle : 0xE0 ≤ b.toNat := hthree.1
    omega
  · have hle : 0xF0 ≤ b.toNat := hfour.1
    omega
  · rfl

/-- The bytes do not begin with one that continues a sequence. -/
def Interrupts (bytes : List UInt8) : Prop := ∀ b ∈ bytes.head?, ¬isContinuation b

theorem interrupts_utf8EncodeChar_append (c : Char) (rest : List UInt8) :
    Interrupts (String.utf8EncodeChar c ++ rest) := by
  intro b hb hcontinuation
  have hsymbols := symbols_utf8EncodeChar_append c rest
  cases hbytes : String.utf8EncodeChar c ++ rest with
  | nil =>
      rw [hbytes] at hb
      cases hb
  | cons lead more =>
      rw [hbytes] at hb hsymbols
      obtain rfl := Option.some.inj hb
      have hfront := front?_continuation hcontinuation more
      rw [symbols_cons_of_none hfront] at hsymbols
      cases hsymbols

/-- Without enough continuation bytes there is no character. -/
theorem sequence?_of_not {bits count least : Nat} {bytes : List UInt8}
    (hnot : ¬((bytes.take count).length = count ∧ (bytes.take count).all isContinuation = true)) :
    sequence? bits count least bytes = none := by
  refine if_neg fun hall => hnot ?_
  rwa [Bool.and_eq_true, decide_eq_true_eq] at hall

/-- A sequence that is broken off is not completed behind an interruption. -/
theorem sequence?_append {rest : List UInt8} (hrest : Interrupts rest) (bits count least : Nat)
    (bytes : List UInt8) :
    sequence? bits count least (bytes ++ rest) = sequence? bits count least bytes := by
  rcases Nat.lt_or_ge bytes.length count with hlt | hle
  · have hbroken : ¬(bytes.take count).length = count := by
      rw [List.length_take]
      omega
    have hstill : ¬(((bytes ++ rest).take count).length = count ∧
        ((bytes ++ rest).take count).all isContinuation = true) := by
      rintro ⟨hlength, hall⟩
      cases rest with
      | nil => exact hbroken (by simpa using hlength)
      | cons b rest =>
          -- The byte that interrupts would have to continue the sequence.
          have hmem : b ∈ (bytes ++ b :: rest).take count := by
            obtain ⟨more, hmore⟩ := Nat.exists_eq_add_of_lt hlt
            rw [hmore, List.take_append, List.mem_append]
            exact .inr (by simp [Nat.add_assoc])
          exact hrest b rfl (List.all_eq_true.mp hall b hmem)
    rw [sequence?_of_not hstill, sequence?_of_not fun hsequence => hbroken hsequence.1]
  · rw [sequence?, sequence?, List.take_append_of_le_length hle]

theorem front?_append {rest : List UInt8} (hrest : Interrupts rest) (b : UInt8)
    (bytes : List UInt8) : front? (b :: (bytes ++ rest)) = front? (b :: bytes) := by
  simp only [front?, sequence?_append hrest]

/-- The symbols before an interruption do not depend on what follows it. -/
theorem symbols_append {rest : List UInt8} (hrest : Interrupts rest) (bytes : List UInt8) :
    symbols (bytes ++ rest) = symbols bytes ++ symbols rest := by
  induction hlength : bytes.length using Nat.strongRecOn generalizing bytes with
  | _ n ih =>
      subst hlength
      cases bytes with
      | nil => rfl
      | cons b bytes =>
          have hsame := front?_append hrest b bytes
          cases hfront : front? (b :: bytes) with
          | none =>
              rw [hfront] at hsame
              rw [List.cons_append, symbols_cons_of_none hsame, symbols_cons_of_none hfront,
                ih _ (by simp) bytes rfl, List.cons_append]
          | some found =>
              obtain ⟨c, count⟩ := found
              have hcount : count ≤ bytes.length := by
                rcases of_front? hfront with ⟨-, -, rfl⟩ | ⟨-, -, hlength, -⟩
                · exact Nat.zero_le _
                · rw [← hlength, List.length_take]
                  exact Nat.min_le_right _ _
              have hlt : (bytes.drop count).length < (b :: bytes).length := by
                rw [List.length_drop, List.length_cons]
                omega
              rw [hfront] at hsame
              rw [List.cons_append, symbols_cons_of_some hsame, symbols_cons_of_some hfront,
                List.drop_append_of_le_length hcount, ih _ hlt (bytes.drop count) rfl,
                List.cons_append]

end TimingReport.Text.Utf8
