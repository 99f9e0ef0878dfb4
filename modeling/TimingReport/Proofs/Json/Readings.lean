import Mathlib.Data.List.DropRight
import Mathlib.Data.List.Forall2
import TimingReport.Json.Shape
import TimingReport.Proofs.Json.Numbers
import TimingReport.Proofs.Json.Strings
import TimingReport.Proofs.Outcome
import TimingReport.Proofs.Text.Utf8

/-!
# What values are read as

A reader that succeeds on a value takes exactly that value, and reads it as the same thing
whatever is around it. Readers of parts hand this property on to readers of lists.
-/

namespace TimingReport.Json

variable {α β : Type}

/-- The reader takes exactly the value, as `a`, whatever follows. -/
def Reads (reader : Reader α) (value : Symbols) (a : α) : Prop :=
  ∀ rest, Ends rest → reader (value ++ rest) = .ok (a, rest)

/-- A reader that skips white space, and for which what is around a value does not matter. -/
structure Local (reader : Reader α) : Prop where
  skipBlank_eq : ∀ s, reader (skipBlank s) = reader s
  reads : ∀ {value rest left : Symbols} {a : α}, Value value → Ends rest →
    reader (value ++ rest) = .ok (a, left) → Reads reader value a

/-- A value is read as one thing only. -/
theorem Reads.unique {reader : Reader α} {value : Symbols} {a b : α}
    (hfirst : Reads reader value a) (hsecond : Reads reader value b) : a = b := by
  have hread := (hfirst [] ends_nil).symm.trans (hsecond [] ends_nil)
  exact (Prod.mk.inj (Except.ok.inj hread)).1

theorem Reads.map {reader : Reader α} {value : Symbols} {a : α} (hreads : Reads reader value a)
    (f : α → β) : Reads (fun s => (reader s).map fun (a, rest) => (f a, rest)) value (f a) := by
  intro rest hrest
  simp only [hreads rest hrest, Except.map]

/-- A reading followed by a conversion that succeeds is a reading. -/
theorem Reads.convert {reader : Reader α} {value : Symbols} {a : α} {b : β}
    (hreads : Reads reader value a) {f : α → Except Fault β} (hb : f a = .ok b) :
    Reads (fun s => do
      let (a, rest) ← reader s
      let b ← f a
      return (b, rest)) value b := by
  intro rest hrest
  simp only [hreads rest hrest, hb, bind, Except.bind, pure, Except.pure]

theorem skipBlank_skipBlank (s : Symbols) : skipBlank (skipBlank s) = skipBlank s :=
  List.dropWhile_idempotent isBlank s

namespace Local

variable {reader : Reader α}

/-- Blanks before a value do not change what is read. -/
theorem append_blank (hlocal : Local reader) {gap : Symbols} (hgap : Blank gap) (s : Symbols) :
    reader (gap ++ s) = reader s := by
  rw [← hlocal.skipBlank_eq, skipBlank_append hgap, hlocal.skipBlank_eq]

/-- A value is read up to its end, whatever follows. -/
theorem eq_ok_iff (hlocal : Local reader) {value rest left : Symbols} {a : α}
    (hvalue : Value value) (hrest : Ends rest) :
    reader (value ++ rest) = .ok (a, left) ↔ left = rest ∧ Reads reader value a := by
  constructor
  · intro hread
    have hreads := hlocal.reads hvalue hrest hread
    rw [hreads rest hrest] at hread
    exact ⟨(Prod.mk.inj (Except.ok.inj hread)).2.symm, hreads⟩
  · rintro ⟨rfl, hreads⟩
    exact hreads left hrest

theorem map (hlocal : Local reader) (f : α → β) :
    Local fun s => (reader s).map fun (a, rest) => (f a, rest) where
  skipBlank_eq s := by simp only [hlocal.skipBlank_eq]
  reads hvalue hrest hread := by
    obtain ⟨⟨a, left⟩, ha, hread⟩ := Outcome.map_eq_ok_iff.mp hread
    obtain ⟨rfl, rfl⟩ := Prod.mk.inj hread
    exact (hlocal.reads hvalue hrest ha).map f

/-- What a local reader reads may be checked and converted. -/
theorem convert (hlocal : Local reader) (f : α → Except Fault β) :
    Local fun s => do
      let (a, rest) ← reader s
      let b ← f a
      return (b, rest) where
  skipBlank_eq s := by simp only [hlocal.skipBlank_eq]
  reads hvalue hrest hread := by
    obtain ⟨⟨a, left⟩, ha, hread⟩ := Outcome.bind_eq_ok_iff.mp hread
    obtain ⟨b, hb, hread⟩ := Outcome.bind_eq_ok_iff.mp hread
    obtain ⟨rfl, rfl⟩ := Prod.mk.inj (Except.ok.inj hread)
    exact (hlocal.reads hvalue hrest ha).convert hb

variable {value : Symbols} {b : β}

/-- What is made of a value is read exactly where the value is. -/
theorem reads_map_iff (hlocal : Local reader) (hvalue : Value value) {f : α → β} :
    Reads (fun s => (reader s).map fun (a, rest) => (f a, rest)) value b ↔
      ∃ a, Reads reader value a ∧ f a = b := by
  constructor
  · intro hreads
    obtain ⟨⟨a, left⟩, ha, hb⟩ := Outcome.map_eq_ok_iff.mp (hreads [] ends_nil)
    exact ⟨a, hlocal.reads hvalue ends_nil ha, (Prod.mk.inj hb).1⟩
  · rintro ⟨a, hreads, rfl⟩
    exact hreads.map f

/-- A converted value is read exactly where the value is and can be converted. -/
theorem reads_convert_iff (hlocal : Local reader) (hvalue : Value value)
    {f : α → Except Fault β} :
    Reads (fun s => do
      let (a, rest) ← reader s
      let b ← f a
      return (b, rest)) value b ↔ ∃ a, Reads reader value a ∧ f a = .ok b := by
  constructor
  · intro hreads
    obtain ⟨⟨a, left⟩, ha, hread⟩ := Outcome.bind_eq_ok_iff.mp (hreads [] ends_nil)
    obtain ⟨other, hother, hread⟩ := Outcome.bind_eq_ok_iff.mp hread
    obtain ⟨rfl, -⟩ := Prod.mk.inj (Except.ok.inj hread)
    exact ⟨a, hlocal.reads hvalue ends_nil ha, hother⟩
  · rintro ⟨a, hreads, hb⟩
    exact hreads.convert hb

end Local

/-! ## Texts -/

/-- A text is read from what follows the opening quote. -/
theorem text_stringText (body rest : Symbols) :
    text (stringText body ++ rest) = readString (body ++ some '"' :: rest) := by
  have hquote : ¬isBlank (some '"') := by decide
  rw [stringText, List.cons_append, List.append_assoc, text, skipBlank_cons hquote]
  rfl

/-- A string is read as the text that its body spells. -/
theorem reads_text_iff {body : Symbols} (hbody : Body body) {a : String} :
    Reads text (stringText body) a ↔ Spells body a.toList := by
  constructor
  · intro hreads
    have hread := hreads [] ends_nil
    rw [text_stringText, readString_eq_ok_iff hbody] at hread
    exact hread.2
  · intro hspells rest _
    rw [text_stringText, readString_eq_ok_iff hbody]
    exact ⟨rfl, hspells⟩

/-- All that is known of the first symbol of a number is that it is a digit. -/
theorem text_unsigned {value : Symbols} (hnumber : Unsigned value) (rest : Symbols) :
    text (value ++ rest) = .error (mismatch "a string" (value ++ rest)) := by
  rw [text, (Value.unsigned hnumber).skipBlank_append]
  split
  next heq => exact absurd heq (hnumber.append_ne (by decide) _ _)
  next => rfl

theorem local_text : Local text where
  skipBlank_eq s := by simp only [text, skipBlank_skipBlank]
  reads hvalue hrest hread := by
    cases hvalue with
    | string hbody =>
        rw [text_stringText, readString_eq_ok_iff hbody] at hread
        exact (reads_text_iff hbody).mpr hread.2
    | unsigned hnumber =>
        rw [text_unsigned hnumber] at hread
        contradiction
    | _ => cases hread

/-! ## Numbers -/

/-- What such a reader gives for a value in one place it gives in every place. -/
theorem Steady.reads {read : Reader α} {value rest left : Symbols} {a : α}
    (hsteady : Steady read value) (hrest : Ends rest)
    (hread : read (value ++ rest) = .ok (a, left)) : Reads read value a := by
  obtain ⟨outcome, houtcome⟩ := hsteady
  rw [houtcome rest hrest] at hread
  obtain ⟨b, rfl, hb⟩ := Outcome.map_eq_ok_iff.mp hread
  obtain ⟨rfl, rfl⟩ := Prod.mk.inj hb
  exact houtcome

/-- Without a sign a number starts with its first digit. -/
theorem number_unsigned (wanted : String) {text : Symbols} (hnumber : Unsigned text)
    (rest : Symbols) : number wanted (text ++ rest) = readNumber (text ++ rest) := by
  rw [number, (Value.unsigned hnumber).skipBlank_append]
  obtain ⟨d, digits, rfl, hdigit⟩ := hnumber.exists_digit
  simp [hdigit]

theorem local_number (wanted : String) : Local (number wanted) where
  skipBlank_eq s := by simp only [number, skipBlank_skipBlank]
  reads hvalue hrest hread := by
    cases hvalue with
    | unsigned hnumber =>
        rw [number_unsigned wanted hnumber] at hread
        intro other hother
        rw [number_unsigned wanted hnumber]
        exact (steady_readNumber hnumber).reads hrest hread other hother
    | negative hnumber => exact (steady_readNumber_negative hnumber).reads hrest hread
    | _ => cases hread

/-- The binary64 number of a number as it is read. -/
def Number.toReal : Number → Binary64
  | .integer n => if n < 0 then -Binary64.ofNat n.natAbs else Binary64.ofNat n.natAbs
  | .real x => x

/-- A real number is a number that is rounded. -/
theorem real_eq : real = fun s => (number "f64" s).map fun (n, rest) => (n.toReal, rest) := by
  funext s
  unfold real
  cases number "f64" s with
  | error => rfl
  | ok found =>
      obtain ⟨n, rest⟩ := found
      cases n <;> rfl

theorem local_real : Local real := by
  rw [real_eq]
  exact (local_number "f64").map Number.toReal

/-- The natural number of a number as it is read, if it has no more than the given bits. -/
def Number.toNatural (bits : Nat) : Number → Except Fault Nat
  | .integer n =>
      if 0 ≤ n ∧ n.toNat < Nat.pow 2 bits then .ok n.toNat
      else .error (.outOfBounds n ("u" ++ toString bits))
  | .real x => .error (.wrongType (.real x) ("u" ++ toString bits))

/-- A natural number is a number that is converted, which fails if it does not fit. -/
theorem natural_eq (bits : Nat) : natural bits = fun s => do
    let (n, rest) ← number ("u" ++ toString bits) s
    let a ← n.toNatural bits
    return (a, rest) := by
  funext s
  simp only [natural]
  cases number ("u" ++ toString bits) s with
  | error => rfl
  | ok found =>
      obtain ⟨n, rest⟩ := found
      cases n with
      | integer n =>
          simp only [Number.toNatural, bind, Except.bind, pure, Except.pure]
          split <;> rfl
      | real x => rfl

theorem local_natural (bits : Nat) : Local (natural bits) := by
  rw [natural_eq]
  exact (local_number _).convert (Number.toNatural bits)

/-! ## Values that may be null -/

variable {reader : Reader α}

/-- Null is read as an absent value. -/
theorem reads_optional_null (reader : Reader α) : Reads (optional reader) nullText none :=
  fun _ _ => rfl

/-- A value other than null is read as itself. -/
theorem optional_append (reader : Reader α) {value : Symbols} (hvalue : Value value)
    (hnull : value ≠ nullText) (rest : Symbols) :
    optional reader (value ++ rest) =
      (reader (value ++ rest)).map fun (a, rest) => (some a, rest) := by
  rw [optional, hvalue.skipBlank_append]
  cases hvalue with
  | null => exact absurd rfl hnull
  | unsigned hnumber =>
      split
      next heq => exact absurd heq (hnumber.append_ne (by decide) _ _)
      next => rfl
  | _ => rfl

/-- A value other than null is read as present, by the reader of the value. -/
theorem reads_optional_iff {value : Symbols} (hvalue : Value value) (hnull : value ≠ nullText)
    {a : Option α} : Reads (optional reader) value a ↔ ∃ b, Reads reader value b ∧ some b = a := by
  constructor
  · intro hreads
    have hread : ∀ rest, Ends rest → ∃ b, reader (value ++ rest) = .ok (b, rest) ∧ some b = a := by
      intro rest hrest
      have hmap := hreads rest hrest
      rw [optional_append reader hvalue hnull] at hmap
      obtain ⟨⟨b, left⟩, hb, hpair⟩ := Outcome.map_eq_ok_iff.mp hmap
      obtain ⟨hsome, rfl⟩ := Prod.mk.inj hpair
      exact ⟨b, hb, hsome⟩
    -- one `b` for all that may follow
    obtain ⟨b, _, rfl⟩ := hread [] ends_nil
    refine ⟨b, fun rest hrest => ?_, rfl⟩
    obtain ⟨_, hb, hsome⟩ := hread rest hrest
    rwa [Option.some.inj hsome] at hb
  · rintro ⟨b, hreads, rfl⟩ rest hrest
    rw [optional_append reader hvalue hnull, hreads rest hrest]
    rfl

theorem local_optional (hlocal : Local reader) : Local (optional reader) where
  skipBlank_eq s := by simp only [optional, skipBlank_skipBlank]
  reads {value rest left a} hvalue hrest hread := by
    by_cases hnull : value = nullText
    · subst hnull
      obtain ⟨rfl, rfl⟩ := Prod.mk.inj (Except.ok.inj hread)
      exact reads_optional_null reader
    · rw [optional_append reader hvalue hnull] at hread
      intro other hother
      rw [optional_append reader hvalue hnull]
      exact (hlocal.map some).reads hvalue hrest hread other hother

/-! ## Lists -/

theorem nextElement_blank {gap : Symbols} (hgap : Blank gap) (first : Bool) (s : Symbols) :
    nextElement first (gap ++ s) = nextElement first s := by
  simp only [nextElement, skipBlank_append hgap]

theorem nextElement_close (first : Bool) (rest : Symbols) :
    nextElement first (some ']' :: rest) = .ok (.closed rest) := rfl

/-- An element of a list is found behind the comma and the white space in front of it. -/
theorem nextElement_item {item : Item} (hvalue : Value item.value) (first : Bool)
    (texts : List Symbols) (tail : Symbols) :
    nextElement first (divided first (item.text :: texts) ++ tail) =
      .ok (.starts (item.value ++ (item.after ++ (divided false texts ++ tail)))) := by
  obtain ⟨s, more, hstart, hs⟩ := hvalue.exists_start
  have hclose : s ≠ some ']' := by rintro rfl; exact hs (by decide)
  have hblank := skipBlank_cons (not_isBlank_of_not_isEnd hs)
  have hcomma : ¬isBlank (some ',') := by decide
  cases first <;>
    simp [divided, Item.text, nextElement, skipBlank_append item.blank_before, hstart, hblank,
      skipBlank_cons hcomma, hclose]

theorem readElements_blank {gap : Symbols} (hgap : Blank gap) (read : List α) (fuel : Nat)
    (first : Bool) (s : Symbols) :
    readElements reader read fuel first (gap ++ s) = readElements reader read fuel first s := by
  cases fuel with
  | zero => rfl
  | succ fuel => rw [readElements, readElements, nextElement_blank hgap]

/-- What follows an item of a list up to the end of the list. -/
theorem Item.ends_after (item : Item) {gap : Symbols} (hgap : Blank gap) {closer : Char}
    (hcloser : isEnd (some closer)) (texts : List Symbols) (rest : Symbols) :
    Ends (item.after ++ (divided false texts ++ (gap ++ some closer :: rest))) :=
  (((ends_cons hcloser rest).append_blank hgap).append_divided texts).append_blank
    item.blank_after

/-- Elements are read one after the other up to the bracket, each by the reader. -/
theorem readElements_eq_ok_iff (hlocal : Local reader) {items : List Item}
    (hitems : ∀ item ∈ items, Value item.value) {gap : Symbols} (hgap : Blank gap) {fuel : Nat}
    (hfuel : items.length < fuel) {first : Bool} {read found : List α} {rest left : Symbols} :
    readElements reader read fuel first
        (divided first (items.map Item.text) ++ (gap ++ some ']' :: rest)) = .ok (found, left) ↔
      left = rest ∧ ∃ more, found = read.reverse ++ more ∧
        List.Forall₂ (fun item a => Reads reader item.value a) items more := by
  have hclose : isEnd (some ']') := by decide
  induction items generalizing fuel first read with
  | nil =>
      cases fuel with
      | zero => contradiction
      | succ fuel =>
        rw [List.map_nil, divided, List.nil_append, readElements_blank hgap, readElements,
          nextElement_close]
        simp [eq_comm, and_comm]
  | cons item items ih =>
      cases fuel with
      | zero => contradiction
      | succ fuel =>
        obtain ⟨hvalue, hitems⟩ := List.forall_mem_cons.mp hitems
        have hfuel : items.length < fuel := Nat.lt_of_succ_lt_succ hfuel
        have hends := item.ends_after hgap hclose (items.map Item.text) rest
        rw [List.map_cons, readElements, nextElement_item hvalue]
        cases hread : reader (item.value ++ (item.after ++
            (divided false (items.map Item.text) ++ (gap ++ some ']' :: rest)))) with
        | error fault =>
            simp only [hread]
            constructor
            · intro hfault
              contradiction
            · rintro ⟨_, _, _, hmore⟩
              cases hmore with
              | cons hreads _ =>
                  rw [hreads _ hends] at hread
                  contradiction
        | ok found' =>
            obtain ⟨a, tail⟩ := found'
            obtain ⟨rfl, hreads⟩ := (hlocal.eq_ok_iff hvalue hends).mp hread
            simp only [hread]
            rw [readElements_blank item.blank_after]
            refine (ih hitems hfuel).trans ⟨?_, ?_⟩
            · rintro ⟨hleft, more, hfound, hmore⟩
              exact ⟨hleft, a :: more, by simpa using hfound, .cons hreads hmore⟩
            · rintro ⟨hleft, _, hfound, hmore⟩
              cases hmore with
              | cons hother hmore =>
                  obtain rfl := hreads.unique hother
                  exact ⟨hleft, _, by simpa using hfound, hmore⟩

/-- There are at most as many parts as symbols. -/
theorem length_le_divided (first : Bool) {texts : List Symbols}
    (htexts : ∀ text ∈ texts, text ≠ []) : texts.length ≤ (divided first texts).length := by
  induction texts generalizing first with
  | nil => exact Nat.zero_le _
  | cons text texts ih =>
      obtain ⟨htext, htexts⟩ := List.forall_mem_cons.mp htexts
      have hpos := List.length_pos_iff.mpr htext
      have hrest : texts.length ≤ (divided false texts).length := ih false htexts
      cases first <;> simp [divided] <;> omega

/-- There are fewer parts inside of a bracket than the fuel that its bytes give. -/
theorem length_lt_fuel {texts : List Symbols} (htexts : ∀ text ∈ texts, text ≠ [])
    (tail : Symbols) : texts.length < Medium.width (divided true texts ++ tail) + 1 := by
  have hlength := length_le_divided true htexts
  have hwidth : (divided true texts ++ tail).length ≤ Medium.width (divided true texts ++ tail) :=
    Text.Utf8.length_le_width _
  rw [List.length_append] at hwidth
  omega

theorem Item.text_ne_nil {item : Item} (hvalue : Value item.value) : item.text ≠ [] := by
  obtain ⟨s, more, hstart, _⟩ := hvalue.exists_start
  simp [Item.text, hstart]

/-- A list is read if each of its items is, one after the other. -/
theorem list_eq_ok_iff (hlocal : Local reader) {items : List Item}
    (hitems : ∀ item ∈ items, Value item.value) {gap : Symbols} (hgap : Blank gap)
    {rest left : Symbols} {found : List α} :
    list reader (listText items gap ++ rest) = .ok (found, left) ↔ left = rest ∧
      List.Forall₂ (fun item a => Reads reader item.value a) items found := by
  have hopen : ¬isBlank (some '[') := by decide
  have htexts : ∀ text ∈ items.map Item.text, text ≠ [] := by
    simpa using fun item hitem => Item.text_ne_nil (hitems item hitem)
  have hfuel := length_lt_fuel htexts (gap ++ some ']' :: rest)
  rw [List.length_map] at hfuel
  have hlist : list reader (listText items gap ++ rest) = readElements reader []
      (Medium.width (divided true (items.map Item.text) ++ (gap ++ some ']' :: rest)) + 1) true
      (divided true (items.map Item.text) ++ (gap ++ some ']' :: rest)) := by
    simp [listText, list, skipBlank_cons hopen]
  rw [hlist, readElements_eq_ok_iff hlocal hitems hgap hfuel]
  simp

/-- A list is read exactly if each of its elements is. -/
theorem reads_list_iff (hlocal : Local reader) {items : List Item}
    (hitems : ∀ item ∈ items, Value item.value) {gap : Symbols} (hgap : Blank gap)
    {found : List α} : Reads (list reader) (listText items gap) found ↔
      List.Forall₂ (fun item a => Reads reader item.value a) items found := by
  constructor
  · intro hreads
    exact ((list_eq_ok_iff hlocal hitems hgap).mp (hreads [] ends_nil)).2
  · exact fun hfound rest _ => (list_eq_ok_iff hlocal hitems hgap).mpr ⟨rfl, hfound⟩

/-- A number is no list. -/
theorem list_unsigned (reader : Reader α) {value : Symbols} (hnumber : Unsigned value)
    (rest : Symbols) : ∃ fault, list reader (value ++ rest) = .error fault := by
  rw [list, (Value.unsigned hnumber).skipBlank_append]
  split
  next heq => exact absurd heq (hnumber.append_ne (by decide) _ _)
  next => exact ⟨_, rfl⟩
  next => exact ⟨_, rfl⟩

theorem local_list (hlocal : Local reader) : Local (list reader) where
  skipBlank_eq s := by simp only [list, skipBlank_skipBlank]
  reads hvalue hrest hread := by
    cases hvalue with
    | list hgap hitems =>
        exact (reads_list_iff hlocal hitems hgap).mpr
          ((list_eq_ok_iff hlocal hitems hgap).mp hread).2
    | unsigned hnumber =>
        obtain ⟨fault, hfault⟩ := list_unsigned reader hnumber _
        rw [hfault] at hread
        contradiction
    | _ => cases hread

end TimingReport.Json
