import TimingReport.Proofs.Settings.YamlTexts
import TimingReport.Yaml.Tokens

/-!
# The tokens of settings in YAML

The text that settings are written as in YAML is scanned token by token. What is said of a
part of the text is that the scanner finds all tokens from the front of the part on if it
finds them from behind it.
-/

namespace TimingReport.Settings

open TimingReport.Yaml Write

/-! ## Scanning -/

/-- From the state on, the scanner comes to the end of the text with these tokens in all. -/
def Scans (s : Scanner) (given : List Token) : Prop :=
  ∀ fuel, s.rest.length ≤ fuel → s.run fuel = ⟨given, true⟩

namespace Scans

variable {s t : Scanner} {given : List Token}

/-- What is scanned from behind a step is scanned from in front of it. -/
theorem of_step (hscans : Scans t given) (hstep : s.step = some t)
    (hlength : t.rest.length < s.rest.length) (hrest : t.rest ≠ []) : Scans s given := by
  intro fuel hfuel
  obtain ⟨fuel, rfl⟩ := Nat.exists_eq_add_one_of_ne_zero (show fuel ≠ 0 by omega)
  simp only [Scanner.run, hstep, List.isEmpty_iff, hrest, if_false]
  exact hscans fuel (by omega)

/-- The scanner is done where a step takes the rest of the text. -/
theorem of_last (hstep : s.step = some t) (hs : s.rest ≠ []) (ht : t.rest = [])
    (hgiven : t.tokens.reverse = given) : Scans s given := by
  intro fuel hfuel
  have hpos := List.length_pos_iff.mpr hs
  obtain ⟨fuel, rfl⟩ := Nat.exists_eq_add_one_of_ne_zero (show fuel ≠ 0 by omega)
  simp only [Scanner.run, hstep, List.isEmpty_iff, ht, if_true, hgiven]

/-- What is skipped before the next token makes no difference. -/
theorem of_skip (hscans : Scans t given) (hskip : s.skip = t.skip)
    (hlength : t.rest.length ≤ s.rest.length) : Scans s given := by
  intro fuel hfuel
  have hrun := hscans fuel (Nat.le_trans hlength hfuel)
  cases fuel with
  | zero => cases hrun
  | succ fuel =>
      have hstep : s.step = t.step := by rw [Scanner.step, hskip, Scanner.step]
      rw [Scanner.run] at hrun ⊢
      rw [hstep]
      cases hnext : t.step with
      | none => simp [hnext] at hrun
      | some next => simpa [hnext] using hrun

end Scans

/-! ## Between tokens -/

/-- A token may start with the character, or the text ends there. -/
def startsToken (c : Char) : Bool :=
  !isBreak c && c != ' ' && c != '\t' && c != '#' && c != Yaml.byteOrderMark

/-- Nothing is skipped in front of a token. -/
theorem skip_of_startsToken {s : Scanner} {c : Char} {p : Place} {rest : List Symbol}
    (hs : s.rest = ⟨c, p⟩ :: rest) (hc : startsToken c) : s.skip = s := by
  simp only [startsToken, Bool.and_eq_true, Bool.not_eq_true', bne_iff_ne] at hc
  obtain ⟨⟨⟨⟨hbreak, hspace⟩, htab⟩, hcomment⟩, hmark⟩ := hc
  have hlayout :
      Scanner.skipLayout s.inFlow s.keyAllowed false s.rest = (s.keyAllowed, s.rest) := by
    rw [hs, Scanner.skipLayout]
    simp [hbreak, hspace, htab, hcomment, hmark]
  rw [Scanner.skip, hlayout]

/-- In front of a token, a step ends the collections that do not reach it and reads it. -/
theorem step_of_startsToken {s fresh opened read : Scanner} {c : Char} {p : Place}
    {rest : List Symbol} (hs : s.rest = ⟨c, p⟩ :: rest) (hc : startsToken c)
    (hfresh : s.dropStale = some fresh) (hunroll : fresh.unroll = opened)
    (hread : opened.readToken = some read) : s.step = read.dropStale := by
  rw [Scanner.step, skip_of_startsToken hs hc, hfresh, Option.bind_eq_bind, Option.bind_some,
    hunroll, hread]
  rfl

/-- A space in front of a token is skipped. -/
theorem Scans.space {s : Scanner} {given : List Token} {p : Place} {text : List Char}
    (hs : s.rest = symbolsFrom p (' ' :: text))
    (hscans : Scans { s with rest := symbolsFrom p.next text } given) :
    Scans s given := by
  refine hscans.of_skip ?_ ?_
  · rw [Scanner.skip, Scanner.skip, hs, symbolsFrom_cons (by decide), Scanner.skipLayout]
    simp [Scanner.inFlow, isBreak, isSeparator, endMark, Yaml.byteOrderMark]
  · rw [hs, symbolsFrom_cons (by decide)]
    exact Nat.le_succ _

/-! ## Tokens outside of brackets -/

/-- The scanner in front of a text, outside of brackets and with no key started. -/
def outside (keyAllowed : Bool) (indents : List Nat) (tokens : List Token) (p : Place)
    (text : List Char) : Scanner where
  rest := symbolsFrom p text
  tokens := tokens
  indents := indents
  keyAllowed := keyAllowed

theorem place_outside (keyAllowed : Bool) (indents : List Nat) (tokens : List Token) (p : Place)
    (text : List Char) : (outside keyAllowed indents tokens p text).place = p :=
  placeOf_symbolsFrom p text

theorem scans_space {keyAllowed : Bool} {indents : List Nat} {tokens given : List Token}
    {p : Place} {text : List Char}
    (hscans : Scans (outside keyAllowed indents tokens p.next text) given) :
    Scans (outside keyAllowed indents tokens p (' ' :: text)) given :=
  Scans.space rfl hscans

/-- Outside of brackets, a key may start on a new line. -/
theorem scans_lineFeed {keyAllowed : Bool} {indents : List Nat} {tokens given : List Token}
    {p : Place} {text : List Char}
    (hscans : Scans (outside true indents tokens (p.nextLine 1) text) given) :
    Scans (outside keyAllowed indents tokens p ('\n' :: text)) given := by
  refine hscans.of_skip ?_ ?_
  · simp [Scanner.skip, outside, symbolsFrom_lineFeed, Scanner.skipLayout, Scanner.inFlow, isBreak]
  · show _ ≤ (symbolsFrom p ('\n' :: text)).length
    rw [symbolsFrom_lineFeed]
    exact Nat.le_succ _

/-- The front does not lie before the column of the innermost open collection. -/
def IsDeep (column : Nat) (indents : List Nat) : Prop := ∀ indent ∈ indents.head?, indent ≤ column

theorem IsDeep.mono {column deeper : Nat} {indents : List Nat} (hdeep : IsDeep column indents)
    (hle : column ≤ deeper) : IsDeep deeper indents :=
  fun indent hindent => Nat.le_trans (hdeep indent hindent) hle

/-- A column inside of the innermost block closes no block. -/
theorem closeDeeper_of_isDeep {column : Nat} {indents : List Nat} (hdeep : IsDeep column indents)
    (tokens : List Token) : Scanner.closeDeeper column tokens indents = (indents, tokens) := by
  cases indents with
  | nil => rfl
  | cons indent outer =>
      have hle : indent ≤ column := hdeep indent rfl
      rw [Scanner.closeDeeper, if_neg (by omega)]

theorem unroll_of_isDeep {s : Scanner} (hdeep : IsDeep s.place.column s.indents) :
    s.unroll = s := by
  rw [Scanner.unroll, closeDeeper_of_isDeep hdeep]
  split <;> rfl

/-- A lesser column closes the blocks that start behind it. -/
theorem unroll_outside {indents closed : List Nat} {tokens before : List Token} {p : Place}
    (hclose : Scanner.closeDeeper p.column tokens indents = (closed, before)) (keyAllowed : Bool)
    (text : List Char) : (outside keyAllowed indents tokens p text).unroll =
      outside keyAllowed closed before p text := by
  simp only [Scanner.unroll, place_outside]
  simp only [outside, Scanner.inFlow, hclose, List.isEmpty_nil, Bool.not_true]
  rfl

theorem dropStale_of_none {s : Scanner} (hkey : s.key = none) (houter : s.outer = []) :
    s.dropStale = some s := by
  obtain ⟨rest, tokens, indents, key, outer, keyAllowed⟩ := s
  subst hkey houter
  rfl

/-- A line that starts with another character marks no document. -/
theorem isMarker_of_ne {c d : Char} (hne : d ≠ c) (p : Place) (rest : List Symbol) :
    isMarker c (⟨d, p⟩ :: rest) = false := by
  simp [isMarker, hne]

/-- A small letter starts a plain text. -/
theorem readToken_letter {s : Scanner} {c : Char} (hc : c.isLower) {p : Place}
    {rest : List Symbol} (hs : s.rest = ⟨c, p⟩ :: rest) : s.readToken = s.readPlain := by
  have hne (d : Char) (hd : ¬ d.isLower) : c ≠ d := ne_of_isLower hc hd
  have hdash := isMarker_of_ne (hne '-' (by decide)) p rest
  have hpoint := isMarker_of_ne (hne '.' (by decide)) p rest
  have hbreak := not_isBreak_of_isLower hc
  simp (disch := decide) [Scanner.readToken, hs, front_cons, hdash, hpoint, startsPlain, isGap,
    isBlank, isFlowMark, reservedMarks, hne, hbreak]

theorem startsToken_of_isLower {c : Char} (hc : c.isLower) : startsToken c := by
  have hne (d : Char) (hd : ¬ d.isLower) : c ≠ d := ne_of_isLower hc hd
  simp (disch := decide) [startsToken, not_isBreak_of_isLower hc, hne]

/-! ### Keys -/

/-- What started at a place on the same line is not stale yet. -/
theorem refresh_along {p : Place} {count : Nat} (hcount : count ≤ maxKeyLength) (position : Nat)
    (isRequired : Bool) : Scanner.refresh (along p count) (some ⟨position, p, isRequired⟩) =
      some (some ⟨position, p, isRequired⟩) := by
  have hstale : KeyStart.isStale ⟨position, p, isRequired⟩ (along p count) = false := by
    simpa [KeyStart.isStale, along] using hcount
  rw [Scanner.refresh, hstale]
  rfl

/-- The state behind a word that may become a key. -/
def pending (indents : List Nat) (tokens : List Token) (name : String) (p : Place)
    (isRequired : Bool) (text : List Char) : Scanner where
  rest := symbolsFrom (along p name.toList.length) text
  tokens := .text name true :: tokens
  indents := indents
  key := some ⟨tokens.length, p, isRequired⟩
  keyAllowed := false

/-- Where a key may stand, its place is kept until the colon is found. -/
theorem saveKey_outside (indents : List Nat) (tokens : List Token) (p : Place)
    (text : List Char) : (outside true indents tokens p text).saveKey =
      some { outside true indents tokens p text with
        key := some ⟨tokens.length, p, indents.head? == some p.column⟩ } := by
  have hdrop : (outside true indents tokens p text).dropKey =
      some (outside true indents tokens p text) := rfl
  simp only [Scanner.saveKey, hdrop, place_outside, Option.bind_eq_bind, Option.bind_some]
  rfl

/-- A word ends at its colon. -/
theorem readPlain_word {name : String} (hname : IsWord name) {next : Char}
    (hnext : next = ' ' ∨ next = '\n') (indents : List Nat) (tokens : List Token) (p : Place)
    (rest : List Char) :
    (outside true indents tokens p (name.toList ++ ':' :: next :: rest)).readPlain = some
      (pending indents tokens name p (indents.head? == some p.column) (':' :: next :: rest)) := by
  have hword (indent : Nat) :
      plainText false indent [] .nothing (symbolsFrom p (name.toList ++ ':' :: next :: rest)) =
        some ((name, false), symbolsFrom (along p name.toList.length) (':' :: next :: rest)) := by
    rw [plainText_word hname.2.2 hnext, List.reverse_nil, List.nil_append, String.ofList_toList]
  rw [Scanner.readPlain, saveKey_outside]
  simp only [Option.bind_eq_bind, Option.bind_some, outside, Scanner.inFlow, List.isEmpty_nil,
    Bool.not_true, hword]
  rfl

theorem dropStale_pending {name : String} (hname : IsWord name) (indents : List Nat)
    (tokens : List Token) (p : Place) (isRequired : Bool) (text : List Char) :
    (pending indents tokens name p isRequired text).dropStale =
      some (pending indents tokens name p isRequired text) := by
  have hshort : name.toList.length ≤ maxKeyLength := Nat.le_trans hname.2.1 (by decide)
  have hplace :
      (pending indents tokens name p isRequired text).place = along p name.toList.length :=
    placeOf_symbolsFrom _ _
  have hrefresh := refresh_along hshort tokens.length (p := p) isRequired
  rw [Scanner.dropStale, hplace]
  simp only [pending, hrefresh]
  rfl

/-- A word before a colon is one step, and may be a key. -/
theorem step_word {name : String} (hname : IsWord name) {next : Char}
    (hnext : next = ' ' ∨ next = '\n') {indents : List Nat} {p : Place}
    (hdeep : IsDeep p.column indents) (tokens : List Token) (rest : List Char) :
    (outside true indents tokens p (name.toList ++ ':' :: next :: rest)).step = some
      (pending indents tokens name p (indents.head? == some p.column) (':' :: next :: rest)) := by
  obtain ⟨c, cs, hcs⟩ := List.exists_cons_of_ne_nil hname.1
  have hc : c.isLower := hname.2.2 c (hcs ▸ List.mem_cons_self)
  have hrest : (outside true indents tokens p (name.toList ++ ':' :: next :: rest)).rest =
      ⟨c, p⟩ :: symbolsFrom p.next (cs ++ ':' :: next :: rest) := by
    rw [outside, hcs, List.cons_append, symbolsFrom_cons (not_isBreak_of_isLower hc)]
  have hread := (readToken_letter hc hrest).trans
    (readPlain_word hname hnext indents tokens p rest)
  rw [step_of_startsToken hrest (startsToken_of_isLower hc) (dropStale_of_none rfl rfl)
    (unroll_outside (closeDeeper_of_isDeep hdeep tokens) _ _) hread]
  exact dropStale_pending hname _ _ _ _ _

theorem rest_pending (indents : List Nat) (tokens : List Token) (name : String) (p : Place)
    (isRequired : Bool) (text : List Char) :
    (pending indents tokens name p isRequired (':' :: text)).rest =
      ⟨':', along p name.toList.length⟩ ::
        symbolsFrom (along p (name.toList.length + 1)) text := by
  rw [pending, symbolsFrom_cons (by decide), ← along_along]
  rfl

/-- A colon before a gap makes what stands before it a key. -/
theorem readToken_colon {name : String} {next : Char} (hnext : next = ' ' ∨ next = '\n')
    (indents : List Nat) (tokens : List Token) (p : Place) (isRequired : Bool)
    (rest : List Char) :
    (pending indents tokens name p isRequired (':' :: next :: rest)).readToken =
      (pending indents tokens name p isRequired (':' :: next :: rest)).readValue := by
  have hgap := isGap_front hnext (along p (name.toList.length + 1)) rest
  have hrest := rest_pending indents tokens name p isRequired (next :: rest)
  have hmarker (c : Char) (hc : ':' ≠ c) := isMarker_of_ne hc (along p name.toList.length)
    (symbolsFrom (along p (name.toList.length + 1)) (next :: rest))
  simp (disch := decide) [Scanner.readToken, hrest, front_cons, hmarker, hgap, endMark]

/-- The open collections and the tokens with a block collection at the column, which opens
with the token unless it is open already. -/
def opened (token : Token) (column : Nat) (indents : List Nat) (tokens : List Token) :
    List Nat × List Token :=
  if indents.head? = some column then (indents, tokens)
  else (column :: indents, token :: tokens)

/-- A block collection opens unless it is open already. -/
theorem roll_of_isDeep {s : Scanner} (houter : s.outer = []) {column : Nat}
    (hdeep : IsDeep column s.indents) (position : Nat) (token : Token) :
    s.roll column position token =
      if s.indents.head? = some column then s
      else { s.insert position token with indents := column :: s.indents } := by
  have hopen : (s.inFlow || s.indents.head?.any (column ≤ ·)) =
      decide (s.indents.head? = some column) := by
    rw [Scanner.inFlow, houter]
    cases hindents : s.indents.head? with
    | none => rfl
    | some indent =>
        have hle : indent ≤ column := hdeep indent hindents
        simp only [List.isEmpty_nil, Bool.not_true, Bool.false_or, Option.any_some,
          Option.some.injEq, decide_eq_decide]
        omega
  rw [Scanner.roll, hopen]
  simp only [decide_eq_true_eq]

/-- A token inserted before those that were found last. -/
theorem insert_behind {s : Scanner} {found before : List Token}
    (hs : s.tokens = found ++ before) (token : Token) :
    s.insert before.length token = { s with tokens := found ++ token :: before } := by
  have hindex (found : List Token) :
      (found ++ before).insertIdx found.length token = found ++ token :: before := by
    induction found with
    | nil => exact List.insertIdx_zero
    | cons first found ih => exact List.insertIdx_succ_cons.trans (congrArg _ ih)
  rw [Scanner.insert, hs, List.length_append, Nat.add_sub_cancel, hindex]

/-- The colon makes the word in front of it a key, and the first key opens a block. -/
theorem readValue_pending {name : String} {indents : List Nat} {p : Place}
    (hdeep : IsDeep p.column indents) (tokens : List Token) (isRequired : Bool)
    (text : List Char) :
    (pending indents tokens name p isRequired (':' :: text)).readValue =
      some (outside false (opened .blockMappingStart p.column indents tokens).1
        (.value :: .text name true :: .key :: (opened .blockMappingStart p.column indents tokens).2)
        (along p (name.toList.length + 1)) text) := by
  obtain ⟨keyed, hkeyed⟩ : ∃ keyed : Scanner, keyed =
      { pending indents tokens name p isRequired (':' :: text) with
        tokens := [Token.text name true, .key] ++ tokens } := ⟨_, rfl⟩
  -- The key stands before the text, where the text was found to start.
  have hkey : (pending indents tokens name p isRequired (':' :: text)).insert tokens.length .key =
      keyed :=
    (@insert_behind _ [.text name true] tokens rfl .key).trans hkeyed.symm
  have hrest : keyed.rest = ⟨':', along p name.toList.length⟩ ::
      symbolsFrom (along p (name.toList.length + 1)) text := by
    rw [hkeyed, ← rest_pending indents tokens name p isRequired text]
  have htokens : keyed.tokens = [Token.text name true, .key] ++ tokens := by rw [hkeyed]
  have hindents : keyed.indents = indents := by rw [hkeyed]; rfl
  have houter : keyed.outer = [] := by rw [hkeyed]; rfl
  have hvalue : (pending indents tokens name p isRequired (':' :: text)).readValue =
      some { (keyed.roll p.column tokens.length .blockMappingStart).advance 1 .value with
        key := none, keyAllowed := false } := by
    rw [← hkey]
    rfl
  rw [hvalue, roll_of_isDeep houter (hindents ▸ hdeep), insert_behind htokens, hindents,
    opened]
  by_cases hsame : indents.head? = some p.column
  · simp [hsame, Scanner.advance, Scanner.emit, outside, hrest, htokens, hindents, houter]
  · simp [hsame, Scanner.advance, Scanner.emit, outside, hrest, houter]

/-- The colon behind a word is one step. -/
theorem step_colon {name : String} (hname : IsWord name) {next : Char}
    (hnext : next = ' ' ∨ next = '\n') {indents : List Nat} {p : Place}
    (hdeep : IsDeep p.column indents) (tokens : List Token) (rest : List Char)
    (isRequired : Bool) :
    (pending indents tokens name p isRequired (':' :: next :: rest)).step =
      some (outside false (opened .blockMappingStart p.column indents tokens).1
        (.value :: .text name true :: .key :: (opened .blockMappingStart p.column indents tokens).2)
        (along p (name.toList.length + 1)) (next :: rest)) := by
  have hrest := rest_pending indents tokens name p isRequired (next :: rest)
  have hunroll : (pending indents tokens name p isRequired (':' :: next :: rest)).unroll =
      pending indents tokens name p isRequired (':' :: next :: rest) := by
    refine unroll_of_isDeep fun indent hindent => ?_
    rw [Scanner.place, hrest, placeOf, along_column]
    exact Nat.le_add_right_of_le (hdeep indent hindent)
  have hread := (@readToken_colon name next hnext indents tokens p isRequired rest).trans
    (readValue_pending hdeep tokens isRequired (next :: rest))
  rw [step_of_startsToken hrest (by decide) (dropStale_pending hname _ _ _ _ _) hunroll hread]
  exact dropStale_of_none rfl rfl

/-- A key with its colon, at the column of the mapping that it belongs to. -/
theorem scans_key {name : String} (hname : IsWord name) {next : Char}
    (hnext : next = ' ' ∨ next = '\n') {indents : List Nat} {p : Place}
    (hdeep : IsDeep p.column indents) {tokens given : List Token} {rest : List Char}
    (hscans : ∀ q : Place, p.column < q.column →
      Scans (outside false (opened .blockMappingStart p.column indents tokens).1
        (.value :: .text name true :: .key :: (opened .blockMappingStart p.column indents tokens).2)
        q (next :: rest)) given) :
    Scans (outside true indents tokens p (name.toList ++ ':' :: next :: rest)) given := by
  have hplain : Plain name.toList := fun c hc => isPlain_of_isLower (hname.2.2 c hc)
  have hpos := List.length_pos_iff.mpr hname.1
  have hpending := (hscans (along p (name.toList.length + 1)) (by rw [along_column]; omega)).of_step
    (step_colon hname hnext hdeep tokens rest (indents.head? == some p.column))
    (by
      rw [rest_pending]
      exact Nat.lt_succ_self _)
    (symbolsFrom_ne_nil _ _)
  refine hpending.of_step (step_word hname hnext hdeep tokens rest) ?_ (symbolsFrom_ne_nil _ _)
  show (symbolsFrom _ _).length < (symbolsFrom _ _).length
  rw [length_symbolsFrom_append hplain p (along p name.toList.length)]
  omega

/-! ### Texts -/

theorem symbolsFrom_quoted (p : Place) (v : String) (rest : List Char) :
    symbolsFrom p (quoted v ++ rest) =
      ⟨'"', p⟩ :: symbolsFrom p.next (v.toList.flatMap quotedChar ++ '"' :: rest) := by
  rw [Write.quoted, List.append_assoc, List.cons_append, symbolsFrom_cons (by decide),
    List.cons_append, List.nil_append]

/-- A quote starts a quoted text. -/
theorem readToken_quote {s : Scanner} {p : Place} {rest : List Symbol}
    (hs : s.rest = ⟨'"', p⟩ :: rest) : s.readToken = s.readPart fun rest =>
      (Yaml.quoted rest).map fun (text, rest) => (.text text false, rest) := by
  have hmarker (c : Char) (hc : '"' ≠ c) := isMarker_of_ne hc p rest
  simp (disch := decide) [Scanner.readToken, hs, front_cons, hmarker, endMark]

/-- A text in quotes is one token. -/
theorem readToken_quoted {s saved : Scanner} {p : Place} {v : String} {rest : List Char}
    (hs : s.rest = symbolsFrom p (quoted v ++ rest)) (hsaved : s.saveKey = some saved)
    (hrest : saved.rest = s.rest) : s.readToken =
      some { saved.emit (.text v false) with
        rest := symbolsFrom (along p (quoted v).length) rest, keyAllowed := false } := by
  have hquote := hs.trans (symbolsFrom_quoted p v rest)
  rw [readToken_quote hquote, Scanner.readPart, hsaved, Option.bind_eq_bind, Option.bind_some,
    hrest, hs, quoted_quoted]
  rfl

/-- A quoted text as the value of a key. -/
theorem scans_text {indents : List Nat} {p : Place} (hdeep : IsDeep p.column indents) (v : String)
    {tokens given : List Token} {rest : List Char}
    (hscans : ∀ q, Scans (outside false indents (.text v false :: tokens) q rest) given) :
    Scans (outside false indents tokens p (' ' :: (quoted v ++ rest))) given := by
  have hrest : (outside false indents tokens p.next (quoted v ++ rest)).rest =
      symbolsFrom p.next (quoted v ++ rest) := rfl
  have hclose := closeDeeper_of_isDeep (hdeep.mono (Nat.le_succ p.column)) tokens
  refine scans_space ((hscans (along p.next (quoted v).length)).of_step ?_ ?_ ?_)
  · rw [step_of_startsToken (symbolsFrom_quoted p.next v rest) (by decide)
      (dropStale_of_none rfl rfl) (unroll_outside hclose _ _) (readToken_quoted hrest rfl rfl)]
    exact dropStale_of_none rfl rfl
  · exact length_behind_quoted _ _ v rest
  · exact symbolsFrom_ne_nil _ _

/-! ### Items -/

/-- The dash of an item ends the collections inside of the item before. -/
theorem scans_dash {indents closed : List Nat} {tokens before : List Token} {p : Place}
    (hp : p.column ≠ 0)
    (hclose : Scanner.closeDeeper p.column tokens indents = (closed, before))
    (hdeep : IsDeep p.column closed) {given : List Token} {rest : List Char}
    (hscans : Scans (outside true (opened .blockSequenceStart p.column closed before).1
      (.blockEntry :: (opened .blockSequenceStart p.column closed before).2) p.next
      (' ' :: rest)) given) :
    Scans (outside true indents tokens p ('-' :: ' ' :: rest)) given := by
  have hsymbols : symbolsFrom p ('-' :: ' ' :: rest) =
      ⟨'-', p⟩ :: symbolsFrom p.next (' ' :: rest) := symbolsFrom_cons (by decide) _ _
  have hrest (indents : List Nat) (tokens : List Token) :
      (outside true indents tokens p ('-' :: ' ' :: rest)).rest =
        ⟨'-', p⟩ :: symbolsFrom p.next (' ' :: rest) := hsymbols
  have hread : (outside true closed before p ('-' :: ' ' :: rest)).readToken =
      (outside true closed before p ('-' :: ' ' :: rest)).readBlockEntry := by
    have hmarker (c : Char) :
        isMarker c (⟨'-', p⟩ :: symbolsFrom p.next (' ' :: rest)) = false := by
      simp [isMarker, placeOf, hp]
    have hgap := isGap_front (.inl rfl) p.next rest
    simp (disch := decide) [Scanner.readToken, hrest, front_cons, hmarker, hgap, endMark]
  have hentry : (outside true closed before p ('-' :: ' ' :: rest)).readBlockEntry =
      some (outside true (opened .blockSequenceStart p.column closed before).1
        (.blockEntry :: (opened .blockSequenceStart p.column closed before).2) p.next
        (' ' :: rest)) := by
    have hopen : (outside true closed before p ('-' :: ' ' :: rest)).openBlock
        .blockSequenceStart = some ((outside true closed before p ('-' :: ' ' :: rest)).roll
          p.column before.length .blockSequenceStart) := by
      rw [Scanner.openBlock, place_outside]
      rfl
    rw [Scanner.readBlockEntry, hopen, roll_of_isDeep rfl hdeep, @insert_behind _ [] before rfl,
      opened]
    by_cases hsame : closed.head? = some p.column
    · simp [hsame, Scanner.dropKey, Scanner.advance, Scanner.emit, outside, hsymbols]
    · simp [hsame, Scanner.dropKey, Scanner.advance, Scanner.emit, outside, hsymbols]
  refine hscans.of_step ?_ ?_ (symbolsFrom_ne_nil _ _)
  · rw [step_of_startsToken (hrest _ _) (by decide) (dropStale_of_none rfl rfl)
      (unroll_outside hclose _ _) (hread.trans hentry)]
    exact dropStale_of_none rfl rfl
  · rw [hrest]
    exact Nat.lt_succ_self _

/-! ### The end -/

/-- Collections that are closed before the end are closed no other way than there. -/
theorem closeDeeper_ends (column : Nat) (tokens : List Token) (indents : List Nat) :
    (Scanner.closeDeeper column tokens indents).1.map (fun _ => Token.blockEnd) ++
      (Scanner.closeDeeper column tokens indents).2 =
      indents.map (fun _ => Token.blockEnd) ++ tokens := by
  induction indents generalizing tokens with
  | nil => rfl
  | cons indent outer ih =>
      rw [Scanner.closeDeeper]
      split
      · rw [ih, List.map_const', List.map_const', List.length_cons, List.replicate_succ',
          List.append_assoc]
        rfl
      · rfl

/-- The end of the text closes the open collections. -/
theorem scans_end (indents : List Nat) (tokens : List Token) (p : Place) :
    Scans (outside true indents tokens p [])
      (tokens.reverse ++ List.replicate indents.length .blockEnd ++ [.streamEnd]) := by
  have hrest (indents : List Nat) (tokens : List Token) :
      (outside true indents tokens p []).rest = [⟨endMark, p⟩] := rfl
  obtain ⟨closed, before, hclose⟩ : ∃ closed before,
      Scanner.closeDeeper p.column tokens indents = (closed, before) := ⟨_, _, rfl⟩
  have hfinish : (outside true closed before p []).readToken =
      some { outside true [] (.streamEnd :: (closed.map (fun _ => .blockEnd) ++ before)) p [] with
        rest := [], keyAllowed := false } := rfl
  have hends := closeDeeper_ends p.column tokens indents
  rw [hclose] at hends
  refine Scans.of_last (t := { outside true [] (.streamEnd ::
    (closed.map (fun _ => .blockEnd) ++ before)) p [] with rest := [], keyAllowed := false })
    ?_ (List.cons_ne_nil _ _) rfl ?_
  · rw [step_of_startsToken (hrest _ _) (by decide) (dropStale_of_none rfl rfl)
      (unroll_outside hclose _ _) hfinish]
    exact dropStale_of_none rfl rfl
  · show (Token.streamEnd :: (closed.map (fun _ => .blockEnd) ++ before)).reverse = _
    rw [hends, List.map_const']
    simp

/-! ## Tokens within brackets -/

/-- The scanner in front of a text within a pair of brackets that is no key. -/
def inside (key : Option KeyStart) (keyAllowed : Bool) (indents : List Nat) (tokens : List Token)
    (p : Place) (text : List Char) : Scanner where
  rest := symbolsFrom p text
  tokens := tokens
  indents := indents
  key := key
  outer := [none]
  keyAllowed := keyAllowed

/-- What started a key may as well not become one. Texts within brackets all start one, which
grows stale if they are long, or is dropped at the next mark. -/
def IsFree (key : Option KeyStart) : Prop := ∀ start ∈ key, start.isRequired = false

theorem dropStale_inside {key : Option KeyStart} (hkey : IsFree key) (keyAllowed : Bool)
    (indents : List Nat) (tokens : List Token) (p : Place) (text : List Char) :
    ∃ still, IsFree still ∧ (inside key keyAllowed indents tokens p text).dropStale =
      some (inside still keyAllowed indents tokens p text) := by
  have hrefresh (p : Place) : ∃ still, IsFree still ∧ Scanner.refresh p key = some still := by
    cases key with
    | none => exact ⟨none, hkey, rfl⟩
    | some start =>
        have hfree := hkey start rfl
        rw [Scanner.refresh]
        split
        · exact ⟨none, by rintro start ⟨⟩, by simp [hfree]⟩
        · exact ⟨some start, hkey, rfl⟩
  obtain ⟨still, hstill, hrefresh⟩ := hrefresh (inside key keyAllowed indents tokens p text).place
  refine ⟨still, hstill, ?_⟩
  rw [Scanner.dropStale, show (inside key keyAllowed indents tokens p text).key = key from rfl,
    hrefresh]
  rfl

theorem dropKey_inside {key : Option KeyStart} (hkey : IsFree key) (keyAllowed : Bool)
    (indents : List Nat) (tokens : List Token) (p : Place) (text : List Char) :
    (inside key keyAllowed indents tokens p text).dropKey =
      some (inside none keyAllowed indents tokens p text) := by
  cases key with
  | none => rfl
  | some start =>
      simp only [Scanner.dropKey, inside, hkey start rfl]
      rfl

section Inside

variable {indents : List Nat} {tokens given : List Token} {p : Place} {rest : List Char}

theorem unroll_inside (key : Option KeyStart) (keyAllowed : Bool) (text : List Char) :
    (inside key keyAllowed indents tokens p text).unroll =
      inside key keyAllowed indents tokens p text := rfl

/-- Within brackets, a step reads the token at the front, whether or not the start of a key
has become stale. -/
theorem scans_inside {key : Option KeyStart} (hkey : IsFree key) {keyAllowed : Bool}
    {text : List Char} {c : Char} {behind : List Symbol}
    (htext : symbolsFrom p text = ⟨c, p⟩ :: behind) (hc : startsToken c)
    (hread : ∀ still, IsFree still → ∃ read next,
      (inside still keyAllowed indents tokens p text).readToken = some read ∧
      read.dropStale = some next ∧ next.rest ≠ [] ∧
      next.rest.length < (symbolsFrom p text).length ∧ Scans next given) :
    Scans (inside key keyAllowed indents tokens p text) given := by
  obtain ⟨still, hstill, hdrop⟩ := dropStale_inside hkey keyAllowed indents tokens p text
  obtain ⟨read, next, hread, hnext, hne, hlength, hscans⟩ := hread still hstill
  refine hscans.of_step ?_ hlength hne
  rw [step_of_startsToken htext hc hdrop (unroll_inside _ _ _) hread]
  exact hnext

/-- Between brackets, too, a text may turn out to be a key. -/
theorem saveKey_inside {key : Option KeyStart} (hkey : IsFree key) (text : List Char) :
    (inside key true indents tokens p text).saveKey =
      some (inside (some ⟨tokens.length, p, false⟩) true indents tokens p text) := by
  have hplace (key : Option KeyStart) : (inside key true indents tokens p text).place = p :=
    placeOf_symbolsFrom p text
  rw [Scanner.saveKey, dropKey_inside hkey]
  simp only [Option.bind_eq_bind, Option.bind_some, hplace]
  rfl

/-- A quoted text between brackets is one token. -/
theorem scans_item {key : Option KeyStart} (hkey : IsFree key) (v : String)
    (hscans : ∀ key, IsFree key → ∀ q,
      Scans (inside key false indents (.text v false :: tokens) q rest) given) :
    Scans (inside key true indents tokens p (quoted v ++ rest)) given := by
  refine scans_inside hkey (symbolsFrom_quoted p v rest) (by decide) fun still hstill => ?_
  have hsaved : IsFree (some ⟨tokens.length, p, false⟩) := by
    rintro start ⟨⟩
    rfl
  obtain ⟨next, hnext, hdrop⟩ := dropStale_inside hsaved false indents (.text v false :: tokens)
    (along p (quoted v).length) rest
  refine ⟨_, _, readToken_quoted rfl (saveKey_inside hstill _) rfl, hdrop, symbolsFrom_ne_nil _ _,
    length_behind_quoted _ _ v rest, hscans next hnext _⟩

/-- A comma between brackets is one token, and leaves no key behind. -/
theorem scans_comma {key : Option KeyStart} (hkey : IsFree key)
    (hscans : Scans (inside none true indents (.flowEntry :: tokens) p.next rest) given) :
    Scans (inside key false indents tokens p (',' :: rest)) given := by
  have hsymbols : symbolsFrom p (',' :: rest) = ⟨',', p⟩ :: symbolsFrom p.next rest :=
    symbolsFrom_cons (by decide) p rest
  refine scans_inside hkey hsymbols (by decide) fun still hstill =>
    ⟨inside none true indents (.flowEntry :: tokens) p.next rest, _, ?_, rfl,
      symbolsFrom_ne_nil _ _, hsymbols ▸ Nat.lt_succ_self _, hscans⟩
  have hread : (inside still false indents tokens p (',' :: rest)).readToken =
      (inside still false indents tokens p (',' :: rest)).readFlowEntry := by
    have hrest : (inside still false indents tokens p (',' :: rest)).rest =
        ⟨',', p⟩ :: symbolsFrom p.next rest := hsymbols
    have hmarker (c : Char) (hc : ',' ≠ c) := isMarker_of_ne hc p (symbolsFrom p.next rest)
    simp (disch := decide) [Scanner.readToken, hrest, front_cons, hmarker, endMark]
  rw [hread, Scanner.readFlowEntry, dropKey_inside hstill]
  simp [Scanner.advance, Scanner.emit, inside, hsymbols]

/-- The closing bracket is one token and leads out of the list. -/
theorem scans_close {key : Option KeyStart} (hkey : IsFree key) (keyAllowed : Bool)
    (hscans : Scans (outside false indents (.flowSequenceEnd :: tokens) p.next rest) given) :
    Scans (inside key keyAllowed indents tokens p (']' :: rest)) given := by
  have hsymbols : symbolsFrom p (']' :: rest) = ⟨']', p⟩ :: symbolsFrom p.next rest :=
    symbolsFrom_cons (by decide) p rest
  refine scans_inside hkey hsymbols (by decide) fun still hstill =>
    ⟨outside false indents (.flowSequenceEnd :: tokens) p.next rest, _, ?_, rfl,
      symbolsFrom_ne_nil _ _, hsymbols ▸ Nat.lt_succ_self _, hscans⟩
  have hread : (inside still keyAllowed indents tokens p (']' :: rest)).readToken =
      (inside still keyAllowed indents tokens p (']' :: rest)).closeFlow .flowSequenceEnd := by
    have hrest : (inside still keyAllowed indents tokens p (']' :: rest)).rest =
        ⟨']', p⟩ :: symbolsFrom p.next rest := hsymbols
    have hmarker (c : Char) (hc : ']' ≠ c) := isMarker_of_ne hc p (symbolsFrom p.next rest)
    simp (disch := decide) [Scanner.readToken, hrest, front_cons, hmarker, endMark]
  rw [hread, Scanner.closeFlow, dropKey_inside hstill]
  simp [Scanner.advance, Scanner.emit, inside, outside, hsymbols]

/-- The tokens of the items of a list. -/
def itemTokens (texts : List String) : List Token :=
  List.intercalate [.flowEntry] (texts.map fun v => [.text v false])

/-- The texts of a list are scanned one after the other up to the bracket. -/
theorem scans_items (texts : List String)
    (hscans : ∀ q, Scans
      (outside false indents (.flowSequenceEnd :: ((itemTokens texts).reverse ++ tokens)) q rest)
      given) :
    Scans (inside none true indents tokens p
      (List.intercalate [',', ' '] (texts.map quoted) ++ ']' :: rest)) given := by
  have hnone : IsFree none := by rintro start ⟨⟩
  -- An item does not tell what stands behind it: a comma if there is another, or the bracket.
  induction texts generalizing tokens p with
  | nil => exact scans_close hnone true (hscans p.next)
  | cons text texts ih =>
      cases texts with
      | nil =>
          rw [List.map_singleton, List.intercalate_singleton]
          exact scans_item hnone text fun key hkey q => scans_close hkey false (hscans q.next)
      | cons other others =>
          rw [List.map_cons, List.map_cons, List.intercalate_cons_cons, List.append_assoc,
            List.append_assoc]
          refine scans_item hnone text fun key hkey q => scans_comma hkey ?_
          have hothers : Scans (inside none true indents (.flowEntry :: .text text false :: tokens)
              q.next.next (List.intercalate [',', ' '] ((other :: others).map quoted) ++
                ']' :: rest)) given := by
            refine ih fun q => ?_
            simpa [itemTokens, List.intercalate_cons_cons] using hscans q
          exact Scans.space rfl hothers

/-- The tokens of a list in brackets. -/
def listTokens (texts : List String) : List Token :=
  .flowSequenceStart :: itemTokens texts ++ [.flowSequenceEnd]

/-- A list is scanned from its first bracket to its last. -/
theorem scans_list (hdeep : IsDeep p.column indents) (texts : List String)
    (hscans : ∀ q, Scans
      (outside false indents ((listTokens texts).reverse ++ tokens) q rest) given) :
    Scans (outside false indents tokens p (' ' :: (list texts ++ rest))) given := by
  have hlist : list texts ++ rest =
      '[' :: (List.intercalate [',', ' '] (texts.map quoted) ++ ']' :: rest) := by
    simp [list]
  have hsymbols : symbolsFrom p.next (list texts ++ rest) = ⟨'[', p.next⟩ ::
      symbolsFrom p.next.next (List.intercalate [',', ' '] (texts.map quoted) ++ ']' :: rest) := by
    rw [hlist, symbolsFrom_cons (by decide)]
  have hrest : (outside false indents tokens p.next (list texts ++ rest)).rest =
      ⟨'[', p.next⟩ :: symbolsFrom p.next.next (List.intercalate [',', ' '] (texts.map quoted) ++
        ']' :: rest) := hsymbols
  have hclose := closeDeeper_of_isDeep (hdeep.mono (Nat.le_succ p.column)) tokens
  have hread : (outside false indents tokens p.next (list texts ++ rest)).readToken =
      some (inside none true indents (.flowSequenceStart :: tokens) p.next.next
        (List.intercalate [',', ' '] (texts.map quoted) ++ ']' :: rest)) := by
    have hmarker (c : Char) (hc : '[' ≠ c) := isMarker_of_ne hc p.next (symbolsFrom p.next.next
      (List.intercalate [',', ' '] (texts.map quoted) ++ ']' :: rest))
    have hopen : (outside false indents tokens p.next (list texts ++ rest)).readToken =
        (outside false indents tokens p.next (list texts ++ rest)).openFlow .flowSequenceStart := by
      simp (disch := decide) [Scanner.readToken, hrest, front_cons, hmarker, endMark]
    rw [hopen, Scanner.openFlow]
    simp [Scanner.saveKey, Scanner.advance, Scanner.emit, outside, inside, hsymbols]
  have hitems : Scans (inside none true indents (.flowSequenceStart :: tokens) p.next.next
      (List.intercalate [',', ' '] (texts.map quoted) ++ ']' :: rest)) given := by
    refine scans_items texts fun q => ?_
    simpa [listTokens] using hscans q
  refine scans_space (hitems.of_step ?_ ?_ (symbolsFrom_ne_nil _ _))
  · rw [step_of_startsToken hrest (by decide) (dropStale_of_none rfl rfl)
      (unroll_outside hclose _ _) hread]
    rfl
  · show _ < (symbolsFrom p.next (list texts ++ rest)).length
    rw [hsymbols]
    exact Nat.lt_succ_self _

end Inside

end TimingReport.Settings
