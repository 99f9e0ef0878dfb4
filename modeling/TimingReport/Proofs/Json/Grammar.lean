import TimingReport.Json.Text

/-!
# The grammar of JSON

What a value of JSON looks like, said apart from the readers: a literal, a number, a
string, or a list or an object of values, with white space around each part. A string is
grammatical whatever its escapes stand for; `Spells` says which text it stands for, if it
stands for one.
-/

namespace TimingReport.Json

/-! ## White space and ends -/

/-- White space between the parts of a value. -/
def Blank (gap : Symbols) : Prop := ∀ s ∈ gap, isBlank s

/-- A symbol that may follow a value. -/
def isEnd (s : Option Char) : Bool :=
  isBlank s || [some ',', some ']', some '\x7d'].contains s

/-- The symbols that follow a value begin with no part of it. -/
def Ends (rest : Symbols) : Prop := ∀ s ∈ rest.head?, isEnd s

/-! ## Strings -/

/-- The code unit that four hexadecimal digits write. -/
def codeUnit? (a b c d : Option Char) : Option Nat := do
  let a ← hexValue? a
  let b ← hexValue? b
  let c ← hexValue? c
  let d ← hexValue? d
  return ((a * 16 + b) * 16 + c) * 16 + d

/-- Four symbols write a code unit exactly if all of them are hexadecimal digits. -/
theorem codeUnit?_eq_some_iff {a b c d : Option Char} {n : Nat} :
    codeUnit? a b c d = some n ↔ ∃ i j k l, hexValue? a = some i ∧ hexValue? b = some j ∧
      hexValue? c = some k ∧ hexValue? d = some l ∧ ((i * 16 + j) * 16 + k) * 16 + l = n := by
  simp [codeUnit?, Option.bind_eq_some_iff]

/-- What may stand between the quotes of a string. -/
inductive Body : Symbols → Prop
  | nil : Body []
  | plain {s : Option Char} {rest : Symbols} (hquote : s ≠ some '"') (hescape : s ≠ some '\\')
      (hcontrol : ¬isControl s) (hrest : Body rest) : Body (s :: rest)
  | short {letter c : Char} {rest : Symbols} (hletter : shortEscape? letter = some c)
      (hrest : Body rest) : Body (some '\\' :: some letter :: rest)
  | unit {a b c d : Option Char} {n : Nat} {rest : Symbols} (hunit : codeUnit? a b c d = some n)
      (hrest : Body rest) : Body (some '\\' :: some 'u' :: a :: b :: c :: d :: rest)

/-- The text that stands between the quotes of a string. The code units of escapes are
characters or pairs of surrogates; a surrogate without its other half spells nothing. -/
inductive Spells : Symbols → List Char → Prop
  | nil : Spells [] []
  | plain {c : Char} {body : Symbols} {text : List Char} (hquote : c ≠ '"') (hescape : c ≠ '\\')
      (hcontrol : ¬isControl (some c)) (hrest : Spells body text) :
      Spells (some c :: body) (c :: text)
  | short {letter c : Char} {body : Symbols} {text : List Char}
      (hletter : shortEscape? letter = some c) (hrest : Spells body text) :
      Spells (some '\\' :: some letter :: body) (c :: text)
  | unit {a b c d : Option Char} {n : Nat} {body : Symbols} {text : List Char}
      (hunit : codeUnit? a b c d = some n) (hlead : ¬isLeading n) (htrail : ¬isTrailing n)
      (hrest : Spells body text) :
      Spells (some '\\' :: some 'u' :: a :: b :: c :: d :: body) (Char.ofNat n :: text)
  | pair {a b c d e f g h : Option Char} {m n : Nat} {body : Symbols} {text : List Char}
      (hfirst : codeUnit? a b c d = some m) (hlead : isLeading m)
      (hsecond : codeUnit? e f g h = some n) (htrail : isTrailing n)
      (hrest : Spells body text) :
      Spells (some '\\' :: some 'u' :: a :: b :: c :: d ::
        some '\\' :: some 'u' :: e :: f :: g :: h :: body) (pairedChar m n :: text)

/-- What spells a text is the body of a string. -/
theorem Spells.body {body : Symbols} {text : List Char} (hspells : Spells body text) :
    Body body := by
  induction hspells with
  | nil => exact .nil
  | plain hquote hescape hcontrol _ ih =>
      exact .plain (by simpa using hquote) (by simpa using hescape) hcontrol ih
  | short hletter _ ih => exact .short hletter ih
  | unit hunit _ _ _ ih => exact .unit hunit ih
  | pair hfirst _ hsecond _ _ ih => exact .unit hfirst (.unit hsecond ih)

/-- A string with its quotes. -/
def stringText (body : Symbols) : Symbols := some '"' :: (body ++ [some '"'])

/-! ## Numbers -/

/-- One digit or more. -/
def Digits (s : Symbols) : Prop := s ≠ [] ∧ ∀ d ∈ s, isDigit d

/-- The whole part of a number, without a zero in front of other digits. -/
inductive Whole : Symbols → Prop
  | zero : Whole [some '0']
  | digits {first : Option Char} {rest : Symbols} (hfirst : first ≠ some '0')
      (hdigits : Digits (first :: rest)) : Whole (first :: rest)

/-- The part of a number from its point on. -/
inductive Fraction : Symbols → Prop
  | absent : Fraction []
  | present {digits : Symbols} (hdigits : Digits digits) : Fraction (some '.' :: digits)

/-- The sign of an exponent. -/
inductive Sign : Symbols → Prop
  | absent : Sign []
  | plus : Sign [some '+']
  | minus : Sign [some '-']

/-- The part of a number from the letter of its exponent on. -/
inductive Exponent : Symbols → Prop
  | absent : Exponent []
  | present {letter : Option Char} {sign digits : Symbols}
      (hletter : letter = some 'e' ∨ letter = some 'E') (hsign : Sign sign)
      (hdigits : Digits digits) : Exponent (letter :: (sign ++ digits))

/-- A number without a sign. -/
inductive Unsigned : Symbols → Prop
  | parts {whole fraction exponent : Symbols} (hwhole : Whole whole)
      (hfraction : Fraction fraction) (hexponent : Exponent exponent) :
      Unsigned (whole ++ (fraction ++ exponent))

/-! ## Lists and objects -/

/-- Texts divided by commas. There is a comma in front, too, unless the first text is the
first of all. -/
def divided : Bool → List Symbols → Symbols
  | _, [] => []
  | true, text :: rest => text ++ divided false rest
  | false, text :: rest => some ',' :: (text ++ divided false rest)

/-- A part of a list: a value with white space around it. -/
structure Item where
  before : Symbols
  value : Symbols
  after : Symbols
  blank_before : Blank before
  blank_after : Blank after

def Item.text (item : Item) : Symbols := item.before ++ (item.value ++ item.after)

/-- A part of an object: a value behind its key, which may have white space around it too. -/
structure Member extends Item where
  lead : Symbols
  key : Symbols
  gap : Symbols
  blank_lead : Blank lead
  body_key : Body key
  blank_gap : Blank gap

def Member.text (member : Member) : Symbols :=
  member.lead ++ some '"' :: (member.key ++ some '"' ::
    (member.gap ++ some ':' :: member.toItem.text))

/-- A list; the gap stands before its closing bracket. -/
def listText (items : List Item) (gap : Symbols) : Symbols :=
  some '[' :: (divided true (items.map Item.text) ++ (gap ++ [some ']']))

/-- An object; the gap stands before its closing bracket. -/
def objectText (members : List Member) (gap : Symbols) : Symbols :=
  some '\x7b' :: (divided true (members.map Member.text) ++ (gap ++ [some '\x7d']))

/-! ## Values -/

def nullText : Symbols := ['n', 'u', 'l', 'l'].map some

def trueText : Symbols := ['t', 'r', 'u', 'e'].map some

def falseText : Symbols := ['f', 'a', 'l', 's', 'e'].map some

/-- A value of JSON, of any depth. -/
inductive Value : Symbols → Prop
  | null : Value nullText
  | true : Value trueText
  | false : Value falseText
  | unsigned {text : Symbols} (hnumber : Unsigned text) : Value text
  | negative {text : Symbols} (hnumber : Unsigned text) : Value (some '-' :: text)
  | string {body : Symbols} (hbody : Body body) : Value (stringText body)
  | list {items : List Item} {gap : Symbols} (hgap : Blank gap)
      (hitems : ∀ item ∈ items, Value item.value) : Value (listText items gap)
  | object {members : List Member} {gap : Symbols} (hgap : Blank gap)
      (hmembers : ∀ member ∈ members, Value member.value) : Value (objectText members gap)

/-! ## Where parts begin -/

/-- White space in front is skipped whole. -/
theorem skipBlank_append {gap : Symbols} (hgap : Blank gap) (rest : Symbols) :
    skipBlank (gap ++ rest) = skipBlank rest :=
  List.dropWhile_append_of_pos hgap

theorem skipBlank_cons {s : Option Char} (hs : ¬isBlank s) (rest : Symbols) :
    skipBlank (s :: rest) = s :: rest :=
  List.dropWhile_cons_of_neg hs

theorem not_isBlank_of_not_isEnd {s : Option Char} (hs : ¬isEnd s) : ¬isBlank s :=
  fun hblank => hs (by simp [isEnd, hblank])

theorem blank_nil : Blank [] := List.forall_mem_nil _

theorem ends_nil : Ends [] := fun _ hs => nomatch hs

theorem ends_cons {s : Option Char} (hs : isEnd s) (rest : Symbols) : Ends (s :: rest) := by
  intro d hd
  obtain rfl := Option.some.inj hd
  exact hs

/-- White space may stand before what ends a value. -/
theorem Ends.append_blank {gap rest : Symbols} (hrest : Ends rest) (hgap : Blank gap) :
    Ends (gap ++ rest) := by
  cases gap with
  | nil => exact hrest
  | cons s gap => exact ends_cons (by simp [isEnd, hgap s List.mem_cons_self]) _

/-- A comma ends a value, and so does what stands behind the last part. -/
theorem Ends.append_divided {rest : Symbols} (hrest : Ends rest) (texts : List Symbols) :
    Ends (divided false texts ++ rest) := by
  cases texts with
  | nil => exact hrest
  | cons text texts => exact ends_cons (by decide) _

/-- No symbol that may follow a value goes on with a number. -/
theorem not_number_of_isEnd {s : Option Char} (hs : isEnd s) :
    ¬isDigit s ∧ s ≠ some '.' ∧ s ≠ some 'e' ∧ s ≠ some 'E' := by
  simp only [isEnd, isBlank, List.contains_iff_mem, Bool.or_eq_true, beq_iff_eq, List.mem_cons,
    List.not_mem_nil, or_false] at hs
  rcases hs with (((rfl | rfl) | rfl) | rfl) | rfl | rfl | rfl <;> decide

theorem not_isEnd_of_isDigit {s : Option Char} (hs : isDigit s) : ¬isEnd s :=
  fun hend => (not_number_of_isEnd hend).1 hs

/-- A whole part starts with a digit. -/
theorem Whole.exists_digit {whole : Symbols} (hwhole : Whole whole) :
    ∃ d rest, whole = d :: rest ∧ isDigit d := by
  cases hwhole with
  | zero => exact ⟨_, _, rfl, by decide⟩
  | digits _ hdigits => exact ⟨_, _, rfl, hdigits.2 _ List.mem_cons_self⟩

theorem Whole.unsigned {whole : Symbols} (hwhole : Whole whole) : Unsigned whole := by
  have hnumber := Unsigned.parts hwhole .absent .absent
  rwa [List.append_nil, List.append_nil] at hnumber

/-- A number without a sign starts with a digit. -/
theorem Unsigned.exists_digit {text : Symbols} (hnumber : Unsigned text) :
    ∃ d rest, text = d :: rest ∧ isDigit d := by
  obtain ⟨hwhole, _, _⟩ := hnumber
  obtain ⟨d, rest, rfl, hdigit⟩ := hwhole.exists_digit
  exact ⟨d, _, rfl, hdigit⟩

/-- A number without a sign starts with nothing but a digit. -/
theorem Unsigned.append_ne {text : Symbols} (hnumber : Unsigned text) {s : Option Char}
    (hs : ¬isDigit s) (rest more : Symbols) : text ++ rest ≠ s :: more := by
  obtain ⟨d, digits, rfl, hdigit⟩ := hnumber.exists_digit
  intro heq
  obtain ⟨rfl, _⟩ := List.cons.inj heq
  exact hs hdigit

/-- A value begins with a symbol that follows no value. -/
theorem Value.exists_start {value : Symbols} (hvalue : Value value) :
    ∃ s rest, value = s :: rest ∧ ¬isEnd s := by
  cases hvalue with
  | null => exact ⟨_, _, rfl, by decide⟩
  | true => exact ⟨_, _, rfl, by decide⟩
  | false => exact ⟨_, _, rfl, by decide⟩
  | unsigned hnumber =>
      obtain ⟨d, rest, rfl, hdigit⟩ := hnumber.exists_digit
      exact ⟨d, rest, rfl, not_isEnd_of_isDigit hdigit⟩
  | negative _ => exact ⟨_, _, rfl, by decide⟩
  | string _ => exact ⟨_, _, rfl, by decide⟩
  | list _ _ => exact ⟨_, _, rfl, by decide⟩
  | object _ _ => exact ⟨_, _, rfl, by decide⟩

/-- A value does not start with white space. -/
theorem Value.skipBlank_append {value : Symbols} (hvalue : Value value) (rest : Symbols) :
    skipBlank (value ++ rest) = value ++ rest := by
  obtain ⟨s, tail, rfl, hs⟩ := hvalue.exists_start
  exact skipBlank_cons (not_isBlank_of_not_isEnd hs) _

end TimingReport.Json
