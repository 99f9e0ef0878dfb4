import TimingReport.Proofs.Settings.Texts
import TimingReport.Yaml.Text

/-!
# Texts between quotes in YAML

What settings write between quotes is read back, whatever stands behind it. Spaces are
gathered in a gap until it is known that no line break follows them, which here none does.
-/

namespace TimingReport.Settings

open TimingReport.Yaml Write

/-! ## Symbols -/

/-- The place so many characters further on the line. -/
def along (p : Place) (count : Nat) : Place :=
  { p with index := p.index + count, column := p.column + count }

@[simp] theorem along_column (p : Place) (count : Nat) :
    (along p count).column = p.column + count := rfl

theorem along_along (p : Place) (count more : Nat) :
    along (along p count) more = along p (count + more) := by
  simp only [along, Place.mk.injEq, true_and]
  omega

theorem along_succ (p : Place) (count : Nat) : along p (count + 1) = along p.next count := by
  rw [Nat.add_comm, ← along_along]
  rfl

/-- No visible character of ASCII breaks a line. -/
theorem not_isBreak {c : Char} (hc : 0x20 ≤ c.toNat ∧ c.toNat ≤ 0x7E) : ¬ isBreak c := by
  simp only [isBreak, isSeparator, Bool.or_eq_true, beq_iff_eq]
  rintro (((rfl | rfl) | rfl) | (rfl | rfl)) <;> exact absurd hc (by decide)

/-- A character that breaks no line is followed by the next column. -/
theorem symbolsFrom_cons {c : Char} (hc : ¬ isBreak c) (p : Place) (rest : List Char) :
    symbolsFrom p (c :: rest) = ⟨c, p⟩ :: symbolsFrom p.next rest := by
  simp only [isBreak, Bool.or_eq_true, beq_iff_eq, not_or] at hc
  rw [symbolsFrom]
  · simp [isBreak, hc]
  · rintro tail rfl
    exact absurd rfl hc.1.1.2

/-- A line feed is followed by the next line. -/
theorem symbolsFrom_lineFeed (p : Place) (rest : List Char) :
    symbolsFrom p ('\n' :: rest) = ⟨'\n', p⟩ :: symbolsFrom (p.nextLine 1) rest := by
  rw [symbolsFrom]
  · rfl
  · exact fun _ heq => absurd heq (by decide)

theorem front_cons (s : Symbol) (rest : List Symbol) : front (s :: rest) = s.char := rfl

/-- Symbols start where they are placed. -/
theorem placeOf_symbolsFrom (p : Place) (text : List Char) : placeOf (symbolsFrom p text) = p := by
  fun_cases symbolsFrom p text <;> rfl

theorem symbolsFrom_ne_nil (p : Place) (text : List Char) : symbolsFrom p text ≠ [] := by
  fun_cases symbolsFrom p text <;> exact List.cons_ne_nil _ _

/-- The number of symbols does not depend on where they stand. -/
theorem length_symbolsFrom (p q : Place) (text : List Char) :
    (symbolsFrom p text).length = (symbolsFrom q text).length := by
  fun_induction symbolsFrom p text generalizing q with
  | case1 => rfl
  | case2 p rest ih => exact congrArg (· + 1) (ih _)
  | case3 p c rest hcr hseparator ih =>
      rw [symbolsFrom, if_pos hseparator]
      · exact congrArg (· + 1) (ih _)
      · exact hcr
  | case4 p c rest hcr hseparator hbreak ih =>
      rw [symbolsFrom, if_neg hseparator, if_pos hbreak]
      · exact congrArg (· + 1) (ih _)
      · exact hcr
  | case5 p c rest hcr hseparator hbreak ih =>
      rw [symbolsFrom, if_neg hseparator, if_neg hbreak]
      · exact congrArg (· + 1) (ih _)
      · exact hcr

/-- A plain character is one symbol. -/
theorem length_symbolsFrom_cons {c : Char} (hc : IsPlain c) (p q : Place) (rest : List Char) :
    (symbolsFrom p (c :: rest)).length = (symbolsFrom q rest).length + 1 := by
  by_cases hline : c = '\n'
  · subst hline
    rw [symbolsFrom_lineFeed, List.length_cons, length_symbolsFrom _ q]
  · rw [symbolsFrom_cons (not_isBreak (hc.resolve_left hline)), List.length_cons,
      length_symbolsFrom _ q]

/-- A plain text has as many symbols as characters, whatever follows it. -/
theorem length_symbolsFrom_append {text : List Char} (htext : Plain text) (p q : Place)
    (rest : List Char) :
    (symbolsFrom p (text ++ rest)).length = (symbolsFrom q rest).length + text.length := by
  induction text generalizing p with
  | nil => exact length_symbolsFrom p q rest
  | cons c text ih =>
      obtain ⟨hc, htext⟩ := List.forall_mem_cons.mp htext
      rw [List.cons_append, length_symbolsFrom_cons hc p q, ih htext, List.length_cons]
      omega

/-! ## Quotes -/

theorem not_isBreak_hexDigit : ∀ d < 16, ¬ isBreak (hexDigit d) := by decide

/-- Hexadecimal digits that end an escape are read as the character that they count. -/
theorem quotedText_hexDigits {read rest : List Char} {c : Char} {n value count : Nat} {p : Place}
    (hcode : value * 16 ^ (count + 1) + n % 16 ^ (count + 1) = c.toNat) :
    quotedText '"' read .nothing (.code (count + 1) value)
      (symbolsFrom p (hexDigits (count + 1) n ++ rest)) =
      quotedText '"' (c :: read) .nothing .nothing (symbolsFrom (along p (count + 1)) rest) := by
  rw [← hexDigits_value] at hcode
  induction count generalizing value p with
  | zero =>
      rw [Nat.pow_zero, Nat.mod_one, Nat.mul_one, Nat.add_zero] at hcode
      have hdigit : Yaml.hexValue? (hexDigit (n / 1 % 16)) = some (n / 1 % 16) :=
        hexValue?_hexDigit (n / 1 % 16) (Nat.mod_lt _ (by decide))
      have hchar : Yaml.charOf? c.toNat = some c := charOf?_toNat c
      have hbreak := not_isBreak_hexDigit (n / 1 % 16) (Nat.mod_lt _ (by decide))
      simp only [hexDigits, Nat.pow_zero, List.cons_append, List.nil_append,
        symbolsFrom_cons hbreak, quotedText, openCode, hdigit, hcode, hchar, Nat.le_refl, if_true,
        Option.map_some]
      rfl
  | succ count ih =>
      have hdigit : Yaml.hexValue? (hexDigit (n / 16 ^ (count + 1) % 16)) =
          some (n / 16 ^ (count + 1) % 16) :=
        hexValue?_hexDigit (n / 16 ^ (count + 1) % 16) (Nat.mod_lt _ (by decide))
      have hbreak := not_isBreak_hexDigit (n / 16 ^ (count + 1) % 16) (Nat.mod_lt _ (by decide))
      have hmore : ¬ count + 1 + 1 ≤ 1 := by omega
      rw [hexDigits, List.cons_append, symbolsFrom_cons hbreak, along_succ p]
      simp only [quotedText, openCode, hdigit, hmore, if_false, Nat.add_sub_cancel,
        List.nil_append]
      refine ih ?_
      rw [hexDigits_value, hcode]

/-- Nothing but blanks was read since the last word. -/
def IsSpaces (gap : Gap) : Prop := gap.isBroken = false

theorem isSpaces_nothing : IsSpaces .nothing := rfl

theorem text_add_space {gap : Gap} (hgap : IsSpaces gap) :
    IsSpaces (gap.add ' ') ∧ (gap.add ' ').text = gap.text ++ [' '] := by
  cases gap with
  | nothing => exact ⟨rfl, rfl⟩
  | blanks cs => exact ⟨rfl, rfl⟩
  | breaks first others => exact absurd hgap (by simp [IsSpaces, Gap.isBroken])

/-- Documents are divided only at the start of a line. -/
theorem isDivider_of_column {s : List Symbol} (hs : (placeOf s).column ≠ 0) :
    isDivider s = false := by
  simp [isDivider, isMarker, hs]

/-- A character that is neither a blank nor a quote comes behind what the gap holds. -/
theorem quotedText_char {p : Place} (hp : p.column ≠ 0) {c : Char} (hc : isVerbatim c)
    (hspace : c ≠ ' ') (gap : Gap) (read rest : List Char) :
    quotedText '"' read gap .nothing (symbolsFrom p (c :: rest)) =
      quotedText '"' (c :: (gap.text.reverse ++ read)) .nothing .nothing
        (symbolsFrom p.next rest) := by
  simp only [isVerbatim, Bool.and_eq_true, decide_eq_true_eq, bne_iff_ne] at hc
  obtain ⟨⟨hprintable, hquote⟩, hescape⟩ := hc
  have htab : c ≠ '\t' := by
    rintro rfl
    exact absurd hprintable.1 (by decide)
  have hend : c ≠ endMark := by
    rintro rfl
    exact absurd hprintable.1 (by decide)
  have hdivider : isDivider (⟨c, p⟩ :: symbolsFrom p.next rest) = false := isDivider_of_column hp
  rw [symbolsFrom_cons (not_isBreak hprintable), quotedText]
  simp [isBlank, hspace, htab, not_isBreak hprintable, hend, hdivider, hquote, hescape]

/-- An escaped character is read as itself, behind the spaces that were gathered. -/
theorem quotedText_escape {p : Place} (hp : p.column ≠ 0) (c : Char) (gap : Gap)
    (read rest : List Char) :
    quotedText '"' read gap .nothing
      (symbolsFrom p ('\\' :: 'U' :: (hexDigits 8 c.toNat ++ rest))) =
      quotedText '"' (c :: (gap.text.reverse ++ read)) .nothing .nothing
        (symbolsFrom (along p 10) rest) := by
  have hcode : 0 * 16 ^ (7 + 1) + c.toNat % 16 ^ (7 + 1) = c.toNat := by
    rw [Nat.zero_mul, Nat.zero_add, Nat.mod_eq_of_lt (toNat_lt c)]
  have hdivider (s : List Symbol) : isDivider (⟨'\\', p⟩ :: s) = false := isDivider_of_column hp
  rw [symbolsFrom_cons (by decide), symbolsFrom_cons (by decide), quotedText]
  simp only [isBlank, isBreak, isSeparator, endMark, hdivider, quotedText, openEscape, codeLength?]
  exact quotedText_hexDigits hcode

/-- What the gap holds may as well have been read already, since no line break follows. -/
theorem quotedText_quoted {p : Place} (hp : p.column ≠ 0) {gap : Gap} (hgap : IsSpaces gap)
    {read before : List Char} (hbefore : read.reverse ++ gap.text = before) (cs rest : List Char) :
    quotedText '"' read gap .nothing (symbolsFrom p (cs.flatMap quotedChar ++ '"' :: rest)) =
      some (String.ofList (before ++ cs),
        symbolsFrom (along p ((cs.flatMap quotedChar).length + 1)) rest) := by
  induction cs generalizing p gap read before with
  | nil =>
      have hdivider (s : List Symbol) : isDivider (⟨'"', p⟩ :: s) = false := isDivider_of_column hp
      have hread : (gap.text.reverse ++ read).reverse = before := by simp [hbefore]
      rw [List.flatMap_nil, List.nil_append, symbolsFrom_cons (by decide), quotedText]
      simp only [isBlank, isBreak, isSeparator, endMark, hdivider, hread, List.append_nil]
      rfl
  | cons c cs ih =>
      have hcolumn : (along p (quotedChar c).length).column ≠ 0 := by
        rw [along_column]
        omega
      have hstep : before ++ c :: cs = before ++ [c] ++ cs := by simp
      have hflushed : (c :: (gap.text.reverse ++ read)).reverse ++ Gap.nothing.text =
          before ++ [c] := by
        simp [Gap.text, ← hbefore]
      rw [List.flatMap_cons, List.append_assoc, List.length_append, Nat.add_assoc, ← along_along,
        hstep]
      -- A space only joins the gap, and what comes after the gap takes it along.
      by_cases hc : isVerbatim c
      · rw [quotedChar, if_pos hc] at hcolumn ⊢
        rw [List.cons_append, List.nil_append]
        by_cases hspace : c = ' '
        · subst hspace
          obtain ⟨hadd, htext⟩ := text_add_space hgap
          rw [symbolsFrom_cons (by decide), quotedText]
          exact ih hcolumn hadd (by rw [htext, ← List.append_assoc, hbefore])
        · rw [quotedText_char hp hc hspace]
          exact ih hcolumn isSpaces_nothing hflushed
      · rw [quotedChar, if_neg hc] at hcolumn ⊢
        rw [List.cons_append, List.cons_append, quotedText_escape hp]
        exact ih hcolumn isSpaces_nothing hflushed

/-- A quoted text is read back, whatever stands behind it. -/
theorem quoted_quoted (p : Place) (v : String) (rest : List Char) :
    Yaml.quoted (symbolsFrom p (Write.quoted v ++ rest)) =
      some (v, symbolsFrom (along p (Write.quoted v).length) rest) := by
  have hcolumn : p.next.column ≠ 0 := Nat.succ_ne_zero _
  have hwritten : Write.quoted v ++ rest =
      '"' :: (v.toList.flatMap quotedChar ++ '"' :: rest) := by
    simp [Write.quoted]
  have hlength : (Write.quoted v).length = (v.toList.flatMap quotedChar).length + 1 + 1 := by
    simp only [Write.quoted, List.length_append, List.length_cons, List.length_nil]
  have hread : quotedText '"' [] .nothing .nothing
      (symbolsFrom p.next (v.toList.flatMap quotedChar ++ '"' :: rest)) =
      some (String.ofList ([] ++ v.toList),
        symbolsFrom (along p.next ((v.toList.flatMap quotedChar).length + 1)) rest) :=
    quotedText_quoted hcolumn isSpaces_nothing rfl v.toList rest
  rw [hlength, along_succ, hwritten, symbolsFrom_cons (by decide), Yaml.quoted, hread,
    List.nil_append, String.ofList_toList]

/-- Less is left behind a quoted text. -/
theorem length_behind_quoted (p q : Place) (v : String) (rest : List Char) :
    (symbolsFrom q rest).length < (symbolsFrom p (Write.quoted v ++ rest)).length := by
  have hpos : 0 < (Write.quoted v).length := Nat.succ_pos _
  rw [length_symbolsFrom_append (plain_quoted v) p q]
  omega

/-! ## Keys -/

/-- The name is a short word of small letters. -/
def IsWord (name : String) : Prop :=
  name.toList ≠ [] ∧ name.toList.length ≤ 8 ∧ ∀ c ∈ name.toList, c.isLower

instance (name : String) : Decidable (IsWord name) :=
  haveI := List.decidableBAll (fun c => Char.isLower c = true) name.toList
  instDecidableAnd

theorem ne_of_isLower {c d : Char} (hc : c.isLower) (hd : ¬ d.isLower) : c ≠ d :=
  fun heq => hd (heq ▸ hc)

/-- A word may be written without quotes. -/
theorem isPlain_of_isLower {c : Char} (hc : c.isLower) : IsPlain c := by
  have hletter : 0x61 ≤ c.toNat ∧ c.toNat ≤ 0x7A := by
    simpa [UInt32.le_iff_toNat_le] using (show (c.val >= 'a'.val && c.val ≤ 'z'.val) = true from hc)
  exact .inr ⟨Nat.le_trans (by decide) hletter.1, Nat.le_trans hletter.2 (by decide)⟩

theorem not_isBreak_of_isLower {c : Char} (hc : c.isLower) : ¬ isBreak c :=
  not_isBreak ((isPlain_of_isLower hc).resolve_left (ne_of_isLower hc (by decide)))

/-- Letters are gathered one by one. -/
theorem plainText_letter {p : Place} {c : Char} (hc : c.isLower) (indent : Nat)
    (read rest : List Char) :
    plainText false indent read .nothing (symbolsFrom p (c :: rest)) =
      plainText false indent (c :: read) .nothing (symbolsFrom p.next rest) := by
  have hbreak := not_isBreak_of_isLower hc
  have hne {d : Char} (hd : ¬ d.isLower) : c ≠ d := ne_of_isLower hc hd
  have hspace : c ≠ ' ' := hne (by decide)
  have htab : c ≠ '\t' := hne (by decide)
  have hend : c ≠ endMark := hne (by decide)
  have hcolon : c ≠ ':' := hne (by decide)
  rw [symbolsFrom_cons hbreak, plainText]
  simp [isBlank, hspace, htab, hbreak, hend, hcolon, Gap.text]

theorem isGap_front {next : Char} (hnext : next = ' ' ∨ next = '\n') (p : Place)
    (rest : List Char) : isGap (front (symbolsFrom p (next :: rest))) := by
  rcases hnext with rfl | rfl
  · rw [symbolsFrom_cons (by decide)]
    rfl
  · rw [symbolsFrom_lineFeed]
    rfl

/-- A word before a colon and a gap is a plain text. -/
theorem plainText_word {p : Place} {indent : Nat} {read cs rest : List Char} {next : Char}
    (hcs : ∀ c ∈ cs, c.isLower) (hnext : next = ' ' ∨ next = '\n') :
    plainText false indent read .nothing (symbolsFrom p (cs ++ ':' :: next :: rest)) =
      some ((String.ofList (read.reverse ++ cs), false),
        symbolsFrom (along p cs.length) (':' :: next :: rest)) := by
  induction cs generalizing p read with
  | nil =>
      have hgap := isGap_front hnext p.next rest
      rw [List.nil_append, List.length_nil, show along p 0 = p from rfl,
        symbolsFrom_cons (by decide), plainText]
      simp [isBlank, isBreak, isSeparator, endMark, hgap, Gap.isBroken]
  | cons c cs ih =>
      obtain ⟨hc, hcs⟩ := List.forall_mem_cons.mp hcs
      rw [List.cons_append, plainText_letter hc, ih hcs, List.length_cons, along_succ]
      simp

end TimingReport.Settings
