import Mathlib.Data.List.Basic
import TimingReport.Text.Utf8

/-!
# Reading what was encoded

The bytes of a text are read as its characters. So every text can be decoded again, and a reader
of symbols sees the same symbols whether it is given a text or the bytes of that text.
-/

namespace TimingReport.Text.Utf8

/-! ## Single characters -/

theorem toNat_byte {n : Nat} (hn : n < 256) : (UInt8.ofNat n).toNat = n :=
  UInt8.toNat_ofNat_of_lt' hn

/-- The byte that continues a sequence with the last six bits of a number. -/
def continuation (n : Nat) : UInt8 := UInt8.ofNat (n % 64 + 128)

theorem toNat_continuation (n : Nat) : (continuation n).toNat = n % 64 + 128 :=
  toNat_byte (by omega)

theorem isContinuation_continuation (n : Nat) : isContinuation (continuation n) := by
  simp only [isContinuation, Bool.and_eq_true, decide_eq_true_eq, UInt8.le_iff_toNat_le,
    UInt8.lt_iff_toNat_lt, toNat_continuation]
  constructor
  · exact Nat.le_add_left _ _
  · change n % 64 + 128 < 192
    omega

theorem combine_continuation (bits : Nat) (codes : List Nat) :
    combine bits (codes.map continuation) =
      codes.foldl (fun code n => code * 64 + n % 64) bits := by
  induction codes generalizing bits with
  | nil => rfl
  | cons n codes ih =>
      have hbits : (continuation n).toNat % 64 = n % 64 := by
        rw [toNat_continuation]
        omega
      rw [List.foldl_cons, ← ih, ← hbits]
      rfl

theorem ofNatAux_toNat (c : Char) (hvalid : c.toNat.isValidChar) :
    Char.ofNatAux c.toNat hvalid = c := by
  have hofNat := Char.ofNat_toNat c
  rwa [Char.ofNat, dif_pos hvalid] at hofNat

/-- Continuation bytes that give the code point of a character are read as it. -/
theorem sequence?_eq {c : Char} {bits least : Nat} (codes : List Nat)
    (hcode : codes.foldl (fun code n => code * 64 + n % 64) bits = c.toNat)
    (hleast : least ≤ c.toNat) (rest : List UInt8) :
    sequence? bits codes.length least (codes.map continuation ++ rest) =
      some (c, codes.length) := by
  have hvalid : c.toNat.isValidChar := c.valid
  have htake : (codes.map continuation ++ rest).take codes.length = codes.map continuation :=
    List.take_left' (List.length_map _)
  have hall : (decide ((codes.map continuation).length = codes.length) &&
      (codes.map continuation).all isContinuation) = true := by
    simp [isContinuation_continuation]
  rw [sequence?, htake]
  dsimp only
  rw [if_pos hall, combine_continuation, hcode, if_pos hleast, dif_pos hvalid, ofNatAux_toNat]

/-- The first byte of a sequence tells how many bytes continue it. -/
theorem front?_lead (n : Nat) (rest : List UInt8) :
    (n < 0x80 → front? (UInt8.ofNat n :: rest) = some (Char.ofNat n, 0)) ∧
    (0xC0 ≤ n → n < 0xE0 → front? (UInt8.ofNat n :: rest) = sequence? (n % 32) 1 0x80 rest) ∧
    (0xE0 ≤ n → n < 0xF0 → front? (UInt8.ofNat n :: rest) = sequence? (n % 16) 2 0x800 rest) ∧
    (0xF0 ≤ n → n < 0xF8 → front? (UInt8.ofNat n :: rest) = sequence? (n % 8) 3 0x10000 rest) := by
  by_cases hn : n < 256
  · have hbyte := toNat_byte hn
    have hle : ∀ m < 256, (UInt8.ofNat m ≤ UInt8.ofNat n ↔ m ≤ n) := by
      intro m hm
      rw [UInt8.le_iff_toNat_le, hbyte, toNat_byte hm]
    have hlt : ∀ m < 256, (UInt8.ofNat n < UInt8.ofNat m ↔ n < m) := by
      intro m hm
      rw [UInt8.lt_iff_toNat_lt, hbyte, toNat_byte hm]
    have hlt80 : UInt8.ofNat n < 0x80 ↔ n < 0x80 := hlt 0x80 (by decide)
    have hleC0 : 0xC0 ≤ UInt8.ofNat n ↔ 0xC0 ≤ n := hle 0xC0 (by decide)
    have hltE0 : UInt8.ofNat n < 0xE0 ↔ n < 0xE0 := hlt 0xE0 (by decide)
    have hleE0 : 0xE0 ≤ UInt8.ofNat n ↔ 0xE0 ≤ n := hle 0xE0 (by decide)
    have hltF0 : UInt8.ofNat n < 0xF0 ↔ n < 0xF0 := hlt 0xF0 (by decide)
    have hleF0 : 0xF0 ≤ UInt8.ofNat n ↔ 0xF0 ≤ n := hle 0xF0 (by decide)
    have hltF8 : UInt8.ofNat n < 0xF8 ↔ n < 0xF8 := hlt 0xF8 (by decide)
    simp only [front?, hbyte, hlt80, hleC0, hltE0, hleE0, hltF0, hleF0, hltF8, Bool.and_eq_true,
      decide_eq_true_eq]
    refine ⟨?_, ?_, ?_, ?_⟩ <;> intros <;> split_ifs <;> first | rfl | omega
  · omega

/-- The bytes of a character, by the size of its code point. -/
theorem utf8EncodeChar_cases (c : Char) :
    (c.toNat < 0x80 ∧ String.utf8EncodeChar c = [UInt8.ofNat c.toNat]) ∨
    (0x80 ≤ c.toNat ∧ c.toNat < 0x800 ∧ String.utf8EncodeChar c =
      UInt8.ofNat (c.toNat / 64 % 32 + 192) :: [c.toNat].map continuation) ∨
    (0x800 ≤ c.toNat ∧ c.toNat < 0x10000 ∧ String.utf8EncodeChar c =
      UInt8.ofNat (c.toNat / 4096 % 16 + 224) :: [c.toNat / 64, c.toNat].map continuation) ∨
    (0x10000 ≤ c.toNat ∧ c.toNat < 0x110000 ∧ String.utf8EncodeChar c =
      UInt8.ofNat (c.toNat / 262144 % 8 + 240) ::
        [c.toNat / 4096, c.toNat / 64, c.toNat].map continuation) := by
  have hmax : c.toNat < 0x110000 := by
    have hvalid : c.toNat.isValidChar := c.valid
    rcases hvalid with hlow | ⟨-, hhigh⟩ <;> omega
  have hvalue : c.val.toNat = c.toNat := rfl
  simp only [String.utf8EncodeChar, hvalue]
  split_ifs with h1 h2 h3
  · exact .inl ⟨by omega, rfl⟩
  · exact .inr (.inl ⟨by omega, by omega, rfl⟩)
  · exact .inr (.inr (.inl ⟨by omega, by omega, rfl⟩))
  · exact .inr (.inr (.inr ⟨by omega, hmax, rfl⟩))

/-- The bytes of a character are read as it, whatever follows. -/
theorem front?_utf8EncodeChar (c : Char) (rest : List UInt8) :
    front? (String.utf8EncodeChar c ++ rest) =
      some (c, (String.utf8EncodeChar c).length - 1) := by
  rcases utf8EncodeChar_cases c with ⟨hlt, hencode⟩ | ⟨hle, hlt, hencode⟩ |
    ⟨hle, hlt, hencode⟩ | ⟨hle, hlt, hencode⟩
  · rw [hencode, List.singleton_append, (front?_lead _ _).1 hlt, Char.ofNat_toNat]
    rfl
  · rw [hencode, List.cons_append, (front?_lead _ _).2.1 (by omega) (by omega)]
    refine sequence?_eq [c.toNat] ?_ hle rest
    simp only [List.foldl_cons, List.foldl_nil]
    omega
  · rw [hencode, List.cons_append, (front?_lead _ _).2.2.1 (by omega) (by omega)]
    refine sequence?_eq [c.toNat / 64, c.toNat] ?_ hle rest
    simp only [List.foldl_cons, List.foldl_nil]
    omega
  · rw [hencode, List.cons_append, (front?_lead _ _).2.2.2 (by omega) (by omega)]
    refine sequence?_eq [c.toNat / 4096, c.toNat / 64, c.toNat] ?_ hle rest
    simp only [List.foldl_cons, List.foldl_nil]
    omega

/-! ## Texts -/

theorem symbolsFrom_append (read : List (Option Char)) (bytes rest : List UInt8) :
    symbolsFrom read bytes.length (bytes ++ rest) = symbolsFrom read 0 rest := by
  induction bytes with
  | nil => rfl
  | cons b bytes ih => exact ih

/-- The bytes of characters are read one character after the other. -/
theorem symbolsFrom_flatMap (read : List (Option Char)) (text : List Char) :
    symbolsFrom read 0 (text.flatMap String.utf8EncodeChar) = read.reverse ++ text.map some := by
  induction text generalizing read with
  | nil => simp [symbolsFrom]
  | cons c text ih =>
      have hfront := front?_utf8EncodeChar c (text.flatMap String.utf8EncodeChar)
      rw [List.flatMap_cons]
      cases hencode : String.utf8EncodeChar c with
      | nil =>
          have hlength := String.length_utf8EncodeChar c
          have hpos := Char.utf8Size_pos c
          rw [hencode] at hlength
          simp at hlength
          omega
      | cons lead bytes =>
          rw [hencode, List.cons_append, List.length_cons, Nat.add_sub_cancel] at hfront
          rw [List.cons_append, symbolsFrom, hfront]
          dsimp only
          rw [symbolsFrom_append, ih]
          simp

theorem symbols_encode (text : String) : symbols (encode text) = text.toList.map some :=
  symbolsFrom_flatMap [] text.toList

/-! ## Widths -/

theorem width_append (before after : List (Option Char)) :
    width (before ++ after) = width before + width after := by
  have hfrom : ∀ total, after.foldl (fun n s => n + (s.map Char.utf8Size).getD 1) total =
      total + width after := by
    induction after with
    | nil => exact fun _ => rfl
    | cons s after ih =>
        intro total
        rw [width, List.foldl_cons, List.foldl_cons, ih, ih]
        omega
  rw [width, List.foldl_append, hfrom]
  rfl

/-- A symbol stands for at least one byte. -/
theorem width_singleton_pos (s : Option Char) : 0 < width [s] := by
  cases s with
  | none => exact Nat.one_pos
  | some c => exact Nat.lt_of_lt_of_eq (Char.utf8Size_pos c) (Nat.zero_add _).symm

theorem length_le_width (symbols : List (Option Char)) : symbols.length ≤ width symbols := by
  induction symbols with
  | nil => exact Nat.zero_le _
  | cons s symbols ih =>
      have hpos := width_singleton_pos s
      rw [← List.singleton_append, width_append, List.length_append, List.length_singleton]
      omega

/-! ## Decoding -/

theorem decode?_encode (text : String) : decode? (encode text) = some text := by
  simp [decode?, symbols_encode, characters?, List.filterMap_map]

end TimingReport.Text.Utf8
