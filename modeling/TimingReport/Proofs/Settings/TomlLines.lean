import Mathlib.Data.List.TakeWhile
import TimingReport.Proofs.Settings.Texts
import TimingReport.Toml.Document

/-!
# The lines of settings in TOML

Each line that settings are written as in TOML is read as one statement, whatever lines stand
behind it: a key without quotes, and a text in quotes or a list of such texts as its value.
-/

namespace TimingReport.Settings

open TimingReport.Toml Write

/-! ## Strings -/

/-- Hexadecimal digits that end an escape are read as the character that they count. -/
theorem lineText_hexDigits {read rest : List Char} {c : Char} {n value count : Nat}
    (hcode : value * 16 ^ (count + 1) + n % 16 ^ (count + 1) = c.toNat) :
    lineText '"' true read (.code (count + 1) value) (hexDigits (count + 1) n ++ rest) =
      lineText '"' true (c :: read) .nothing rest := by
  rw [← hexDigits_value] at hcode
  induction count generalizing value with
  | zero =>
      rw [Nat.pow_zero, Nat.mod_one, Nat.mul_one, Nat.add_zero] at hcode
      have hdigit := hexValue?_hexDigit (n / 1 % 16) (Nat.mod_lt _ (by decide))
      simp only [hexDigits, Nat.pow_zero, List.cons_append, List.nil_append, lineText, openCode,
        hdigit, hcode, charOf?_toNat, Nat.le_refl, if_true, Option.map_some]
  | succ count ih =>
      have hdigit := hexValue?_hexDigit (n / 16 ^ (count + 1) % 16) (Nat.mod_lt _ (by decide))
      have hmore : ¬ count + 1 + 1 ≤ 1 := by omega
      simp only [hexDigits, List.cons_append, lineText, openCode, hdigit, hmore, if_false,
        Nat.add_sub_cancel, List.nil_append]
      refine ih ?_
      rw [hexDigits_value, hcode]

/-- A written character is read as itself. -/
theorem lineText_quotedChar (read rest : List Char) (c : Char) :
    lineText '"' true read .nothing (quotedChar c ++ rest) =
      lineText '"' true (c :: read) .nothing rest := by
  by_cases hc : isVerbatim c
  · rw [quotedChar, if_pos hc]
    simp only [isVerbatim, Bool.and_eq_true, decide_eq_true_eq, bne_iff_ne] at hc
    obtain ⟨⟨⟨hlow, hhigh⟩, hquote⟩, hescape⟩ := hc
    have hprintable : isPrintable c := by
      simp [isPrintable, hlow, show c.toNat ≠ 0x7F by omega]
    simp [lineText, hquote, hescape, hprintable]
  · rw [quotedChar, if_neg hc]
    have hcode : 0 * 16 ^ (7 + 1) + c.toNat % 16 ^ (7 + 1) = c.toNat := by
      rw [Nat.zero_mul, Nat.zero_add, Nat.mod_eq_of_lt (toNat_lt c)]
    simpa [lineText, openEscape] using lineText_hexDigits hcode

/-- Written characters are read up to the quote. -/
theorem lineText_quoted (read cs rest : List Char) :
    lineText '"' true read .nothing (cs.flatMap quotedChar ++ '"' :: rest) =
      some (String.ofList (read.reverse ++ cs), rest) := by
  induction cs generalizing read with
  | nil => simp [lineText]
  | cons c cs ih =>
      rw [List.flatMap_cons, List.append_assoc, lineText_quotedChar, ih]
      simp

/-- No character is written with a quote in front. -/
theorem quotedChar_append_ne_quote (c : Char) (rest tail : List Char) :
    quotedChar c ++ rest ≠ '"' :: tail := by
  intro heq
  by_cases hc : isVerbatim c
  · rw [quotedChar, if_pos hc] at heq
    obtain ⟨rfl, -⟩ := List.cons.inj heq
    exact absurd hc (by decide)
  · rw [quotedChar, if_neg hc] at heq
    exact absurd (List.cons.inj heq).1 (by decide)

/-- A quoted text is on one line: it does not start with three quotes, also if it is empty. -/
theorem text_quoted {next : Char} (hnext : next ≠ '"') (v : String) (rest : List Char) :
    Toml.text (quoted v ++ next :: rest) = some (v, next :: rest) := by
  have hquoted : quoted v ++ next :: rest =
      '"' :: (v.toList.flatMap quotedChar ++ '"' :: next :: rest) := by
    simp [quoted]
  rw [hquoted]
  unfold Toml.text
  -- Three quotes would open a text over several lines.
  split
  · next hthree =>
      cases hv : v.toList with
      | nil =>
          rw [hv] at hthree
          simp_all
      | cons c cs =>
          rw [hv, List.flatMap_cons, List.append_assoc] at hthree
          exact absurd (List.cons.inj hthree).2 (quotedChar_append_ne_quote c _ _)
  · next hthree => exact absurd (List.cons.inj hthree).1 (by decide)
  · rw [oneLine, lineText_quoted, List.reverse_nil, List.nil_append, String.ofList_toList]

/-! ## Keys -/

/-- The name may stand as a key without quotes. -/
def IsKeyName (name : String) : Prop := name.toList ≠ [] ∧ ∀ c ∈ name.toList, isBare c

instance (name : String) : Decidable (IsKeyName name) :=
  haveI := List.decidableBAll (fun c => isBare c = true) name.toList
  instDecidableAnd

theorem IsKeyName.exists_cons {name : String} (hname : IsKeyName name) :
    ∃ c cs, name.toList = c :: cs ∧ isBare c := by
  obtain ⟨c, cs, hcs⟩ := List.exists_cons_of_ne_nil hname.1
  exact ⟨c, cs, hcs, hname.2 c (hcs ▸ List.mem_cons_self)⟩

theorem ne_of_isBare {c d : Char} (hc : isBare c) (hd : ¬ isBare d) : c ≠ d :=
  fun heq => hd (heq ▸ hc)

theorem not_isSpace_of_isBare {c : Char} (hc : isBare c) : ¬ isSpace c := by
  simp [isSpace, ne_of_isBare hc (show ¬ isBare ' ' by decide),
    ne_of_isBare hc (show ¬ isBare '\t' by decide)]

/-- A name is a key without quotes. -/
theorem simpleKey_name {name : String} (hname : IsKeyName name) {next : Char}
    (hnext : ¬ isBare next) (rest : List Char) :
    simpleKey (name.toList ++ next :: rest) = some (name, next :: rest) := by
  have hline : oneLine (name.toList ++ next :: rest) = none := by
    obtain ⟨c, cs, hcs, hc⟩ := hname.exists_cons
    rw [hcs, List.cons_append, oneLine]
    all_goals
      intro tail hquote
      exact ne_of_isBare hc (by decide) (List.cons.inj hquote).1
  have htake : (name.toList ++ next :: rest).takeWhile isBare = name.toList := by
    rw [List.takeWhile_append_of_pos hname.2, List.takeWhile_cons_of_neg hnext, List.append_nil]
  have hdrop : (name.toList ++ next :: rest).dropWhile isBare = next :: rest := by
    rw [List.dropWhile_append_of_pos hname.2, List.dropWhile_cons_of_neg hnext]
  simp only [simpleKey, hline, htake, hdrop, String.ofList_toList, List.isEmpty_iff, hname.1,
    if_false]

theorem skipSpace_name {name : String} (hname : IsKeyName name) (rest : List Char) :
    skipSpace (name.toList ++ rest) = name.toList ++ rest := by
  obtain ⟨c, cs, hcs, hc⟩ := hname.exists_cons
  rw [hcs, List.cons_append, skipSpace, List.dropWhile_cons_of_neg (not_isSpace_of_isBare hc)]

/-- A name without a point behind it is the whole path of its key. -/
theorem keyPath_name {name : String} (hname : IsKeyName name) {next : Char}
    (hnext : ¬ isBare next) {rest behind : List Char} {found : Char} (hfound : found ≠ '.')
    (hbehind : skipSpace (next :: rest) = found :: behind) :
    keyPath (name.toList ++ next :: rest) = some ([name], found :: behind) := by
  have hkey : simpleKey (skipSpace (name.toList ++ next :: rest)) = some (name, next :: rest) := by
    rw [skipSpace_name hname, simpleKey_name hname hnext]
  rw [keyPath, show maxLevels - 1 = 78 + 1 from rfl, dottedKey, hkey]
  simp only [Option.bind_eq_bind, Option.bind_some, hbehind]
  split
  · next heq => exact absurd (List.cons.inj heq).1 hfound
  · rfl

/-! ## Values -/

/-- The characters that end a value in the text of settings. -/
def IsBehindValue (c : Char) : Prop := c = '\n' ∨ c = ',' ∨ c = ']'

/-- A quoted text is a value. -/
theorem valueTo_quoted {next : Char} (hnext : IsBehindValue next) (levels : Nat) (v : String)
    (rest : List Char) :
    valueTo levels (quoted v ++ next :: rest) = some (.text v, next :: rest) := by
  have hquote : next ≠ '"' := by rcases hnext with rfl | rfl | rfl <;> decide
  have htext := text_quoted hquote v rest
  obtain ⟨cs, hcs⟩ : ∃ cs, quoted v ++ next :: rest = '"' :: cs := ⟨_, rfl⟩
  rw [hcs] at htext ⊢
  cases levels <;> simp [valueTo, valueWithin, htext]

theorem items_space (value : Scan Node) (fuel : Nat) (s : List Char) :
    items value fuel (' ' :: s) = items value fuel s := by
  cases fuel with
  | zero => rfl
  | succ fuel => simp [items, skipLayout, isSpace]

/-- The closing bracket ends the list behind its last text. -/
theorem items_last (levels fuel : Nat) (v : String) (rest : List Char) :
    items (valueTo levels) (fuel + 1) (quoted v ++ ']' :: rest) = some ([.text v], rest) := by
  have hvalue := valueTo_quoted (.inr (.inr rfl)) levels v rest
  obtain ⟨cs, hcs⟩ : ∃ cs, quoted v ++ ']' :: rest = '"' :: cs := ⟨_, rfl⟩
  rw [hcs] at hvalue ⊢
  simp [items, hvalue, skipLayout, isSpace]

/-- A comma leads to the next text of a list. -/
theorem items_more (levels fuel : Nat) (v : String) (rest : List Char) :
    items (valueTo levels) (fuel + 1) (quoted v ++ ',' :: rest) =
      (items (valueTo levels) fuel rest).map fun (nodes, s) => (.text v :: nodes, s) := by
  have hvalue := valueTo_quoted (.inr (.inl rfl)) levels v rest
  obtain ⟨cs, hcs⟩ : ∃ cs, quoted v ++ ',' :: rest = '"' :: cs := ⟨_, rfl⟩
  rw [hcs] at hvalue ⊢
  simp [items, hvalue, skipLayout, isSpace]

/-- The texts of a list are read one after the other. -/
theorem items_quoted (levels : Nat) (texts : List String) (rest : List Char) {fuel : Nat}
    (hfuel : texts.length ≤ fuel) :
    items (valueTo levels) (fuel + 1)
      (List.intercalate [',', ' '] (texts.map quoted) ++ ']' :: rest) =
      some (texts.map .text, rest) := by
  induction texts generalizing fuel with
  | nil => simp [items, skipLayout, isSpace]
  | cons text texts ih =>
      cases texts with
      | nil => simpa using items_last levels fuel text rest
      | cons other others =>
          obtain ⟨fuel, rfl⟩ := Nat.exists_eq_add_one_of_ne_zero (Nat.ne_zero_of_lt hfuel)
          have hothers := ih (Nat.le_of_succ_le_succ hfuel)
          rw [List.map_cons] at hothers
          rw [List.map_cons, List.map_cons, List.intercalate_cons_cons, List.append_assoc,
            List.append_assoc, List.cons_append, List.cons_append, List.nil_append, items_more,
            items_space, hothers]
          rfl

theorem length_le_intercalate (texts : List String) :
    texts.length ≤ (List.intercalate [',', ' '] (texts.map quoted)).length := by
  induction texts with
  | nil => exact Nat.le_refl 0
  | cons text texts ih =>
      cases texts with
      | nil => simp [quoted]
      | cons other others =>
          simp only [List.map_cons, List.intercalate_cons_cons, List.length_append,
            List.length_cons, List.length_nil] at ih ⊢
          omega

/-- A list of quoted texts is a value. -/
theorem valueTo_list (levels : Nat) (texts : List String) (rest : List Char) :
    valueTo (levels + 1) (list texts ++ rest) = some (.array (texts.map .text), rest) := by
  have hfuel : texts.length ≤
      (List.intercalate [',', ' '] (texts.map quoted) ++ ']' :: rest).length := by
    have hlength := length_le_intercalate texts
    rw [List.length_append]
    omega
  simp only [list, List.cons_append, List.append_assoc, List.nil_append]
  rw [valueTo, valueWithin, Option.bind_eq_bind, Option.bind_some,
    items_quoted levels texts rest hfuel]
  rfl

/-! ## Lines -/

/-- The text is read as statements, whatever stands behind it. -/
structure Lines (text : List Char) (read : List Statement) : Prop where
  length_le : read.length ≤ text.length
  statements_append (fuel : Nat) (rest : List Char) :
    statements (fuel + read.length) (text ++ rest) = (statements fuel rest).map (read ++ ·)

namespace Lines

theorem nil : Lines [] [] where
  length_le := Nat.le_refl 0
  statements_append fuel rest := by simp

/-- Lines are read as their statements, one after the other. -/
theorem append {first second : List Char} {read others : List Statement} (hfirst : Lines first read)
    (hsecond : Lines second others) : Lines (first ++ second) (read ++ others) where
  length_le := by
    rw [List.length_append, List.length_append]
    exact Nat.add_le_add hfirst.length_le hsecond.length_le
  statements_append fuel rest := by
    rw [List.append_assoc, List.length_append, Nat.add_comm read.length, ← Nat.add_assoc,
      hfirst.statements_append, hsecond.statements_append, Option.map_map]
    simp [Function.comp_def]

theorem flatMap {α : Type} {write : α → List Char} {read : α → List Statement} (l : List α)
    (hlines : ∀ a ∈ l, Lines (write a) (read a)) : Lines (l.flatMap write) (l.flatMap read) := by
  induction l with
  | nil => exact nil
  | cons a l ih =>
      obtain ⟨ha, hl⟩ := List.forall_mem_cons.mp hlines
      exact ha.append (ih hl)

end Lines

/-- A statement that ends with its line leaves the other lines to be read. -/
theorem statements_statement {c : Char} {cs rest : List Char} {found : Statement}
    (hspace : ¬ isSpace c) (hc : ¬ (c = '#' ∨ c = '\n' ∨ c = '\r'))
    (hfound : statement (c :: cs) = some (found, '\n' :: rest)) (fuel : Nat) :
    statements (fuel + 1) (c :: cs) = (statements fuel rest).map (found :: ·) := by
  have hskip : skipSpace (c :: cs) = c :: cs := List.dropWhile_cons_of_neg hspace
  have hend : endOfLine ('\n' :: rest) = some rest := rfl
  simp only [statements, hskip, hc, if_false, hfound, hend, Option.bind_eq_bind, Option.bind_some]
  cases statements fuel rest <;> rfl

/-- A written line assigns its value to its name. -/
theorem assignment_tomlLine {name : String} (hname : IsKeyName name) {written rest : List Char}
    {node : Node} (hstart : skipSpace (written ++ '\n' :: rest) = written ++ '\n' :: rest)
    (hvalue : Toml.value (written ++ '\n' :: rest) = some (node, '\n' :: rest)) :
    assignment value (tomlLine name written ++ rest) = some (⟨[name], node⟩, '\n' :: rest) := by
  have hline : tomlLine name written ++ rest =
      name.toList ++ ' ' :: '=' :: ' ' :: (written ++ '\n' :: rest) := by
    simp [tomlLine, line]
  have hkey : keyPath (name.toList ++ ' ' :: '=' :: ' ' :: (written ++ '\n' :: rest)) =
      some ([name], '=' :: ' ' :: (written ++ '\n' :: rest)) :=
    keyPath_name hname (by decide) (by decide) rfl
  have hskip : skipSpace (' ' :: (written ++ '\n' :: rest)) = written ++ '\n' :: rest := hstart
  rw [hline, assignment, hkey]
  simp only [Option.bind_eq_bind, Option.bind_some, mark, if_true, hskip, hvalue]
  rfl

/-- A line with a value is a statement. -/
theorem lines_tomlLine {name : String} (hname : IsKeyName name) {written : List Char} {node : Node}
    (hstart : ∀ rest, skipSpace (written ++ rest) = written ++ rest)
    (hvalue : ∀ rest, Toml.value (written ++ '\n' :: rest) = some (node, '\n' :: rest)) :
    Lines (tomlLine name written) [.value ⟨[name], node⟩] where
  length_le := by
    simp only [tomlLine, line, List.length_append, List.length_cons]
    omega
  statements_append fuel rest := by
    obtain ⟨c, cs, hcs, hc⟩ := hname.exists_cons
    have hassign := assignment_tomlLine hname (hstart _) (hvalue rest)
    obtain ⟨tail, htail⟩ : ∃ tail, tomlLine name written ++ rest = c :: tail :=
      ⟨_, by rw [tomlLine, line, hcs]; rfl⟩
    rw [htail] at hassign ⊢
    refine statements_statement (not_isSpace_of_isBare hc) ?_ ?_ fuel
    · rintro (rfl | rfl | rfl) <;> exact absurd hc (by decide)
    · rw [statement, hassign]
      · rfl
      all_goals
        intro other hbracket
        exact ne_of_isBare hc (by decide) (List.cons.inj hbracket).1

/-- The header of a rule is a line of its own. -/
theorem lines_rulesHeader : Lines "[[rules]]\n".toList [.listHeader ["rules"]] where
  length_le := by decide
  statements_append fuel rest := by
    have hkey : keyPath ("rules".toList ++ ']' :: ']' :: '\n' :: rest) =
        some (["rules"], ']' :: ']' :: '\n' :: rest) :=
      keyPath_name (by decide) (by decide) (by decide) rfl
    refine statements_statement (c := '[') (by decide) (by decide) ?_ fuel
    show statement ('[' :: '[' :: ("rules".toList ++ ']' :: ']' :: '\n' :: rest)) = _
    rw [statement, hkey]
    rfl

/-- The line of a text is read as one assignment. -/
theorem lines_text {name : String} (hname : IsKeyName name) (v : String) :
    Lines (tomlLine name (quoted v)) [.value ⟨[name], .text v⟩] :=
  lines_tomlLine hname (fun _ => rfl) fun _ => valueTo_quoted (.inl rfl) _ v _

/-- The line of a list of texts is read as one assignment. -/
theorem lines_list {name : String} (hname : IsKeyName name) (texts : List String) :
    Lines (tomlLine name (list texts)) [.value ⟨[name], .array (texts.map .text)⟩] :=
  lines_tomlLine hname (fun _ => rfl) fun _ => valueTo_list 78 texts _

end TimingReport.Settings
