import TimingReport.Proofs.Json.Bytes
import TimingReport.Proofs.Json.Strings

/-!
# Strings in both media

The bytes of a string are gathered one by one and checked when it has ended, while its characters
are gathered as they are. The same characters come out, or the string is refused by both: a
sequence that a quote or an escape breaks off is completed by nothing that follows.
-/

namespace TimingReport.Json

open Text.Utf8

variable {u v : Symbols} {s t : Option Char}

/-! ## Symbols outside of ASCII -/

/-- No hexadecimal digit is outside of ASCII. -/
theorem hexValue?_foreign (hs : IsForeign s) : hexValue? s = none := by
  cases s with
  | none => rfl
  | some c =>
      have hforeign : 0x80 ≤ c.toNat := hs c rfl
      have hlt : ∀ d : Char, d.toNat < 0x80 → ¬c ≤ d := by
        intro d hd hle
        have hle : c.toNat ≤ d.toNat := hle
        omega
      simp [hexValue?, hlt '9' (by decide), hlt 'f' (by decide), hlt 'F' (by decide)]

theorem isAscii_isControl : IsAscii isControl := by
  intro s hs
  cases s with
  | none => rfl
  | some c =>
      have hforeign : 0x80 ≤ c.toNat := hs c rfl
      simp only [isControl, decide_eq_false_iff_not]
      omega

theorem shortEscape?_foreign (hs : IsForeign s) : s.bind shortEscape? = none := by
  cases hshort : s.bind shortEscape? with
  | none => rfl
  | some d =>
      obtain ⟨c, rfl, hc⟩ := Option.bind_eq_some_iff.mp hshort
      unfold shortEscape? at hc
      split at hc
      case h_9 => contradiction
      all_goals exact absurd rfl (hs.ne (by decide))

/-- Both have as many bytes left for an escape. -/
theorem hexFault_agree (h : Decodes u v) (missing : Nat) :
    @hexFault .bytes missing u = hexFault missing v := by
  obtain ⟨bytes, rfl, rfl⟩ := h
  have hwidth := width_symbols bytes
  have hlength := length_le_width (symbols bytes)
  have htaken := length_le_width ((symbols bytes).take missing)
  have hiff : ((bytes.map ofByte).take missing).length < missing ↔
      width ((symbols bytes).take missing) < missing := by
    rw [List.length_take, List.length_map]
    rw [List.length_take] at htaken
    rcases Nat.lt_or_ge missing (symbols bytes).length with hlt | hle
    · omega
    · rw [List.take_of_length_le hle]
      omega
  exact if_congr hiff rfl rfl

/-! ## Values that are passed over -/

namespace Skip

/-- No value starts outside of ASCII. -/
theorem startValue_foreign (hs : IsForeign s) (stack : List Frame) :
    startValue stack s = .fault .expectedValue := by
  simp only [startValue, isAscii_isBlank hs, isAscii_isDigit hs, Bool.false_eq_true, if_false]
  split
  case h_8 => rfl
  all_goals exact absurd rfl (hs.ne (by decide))

/-- No key starts outside of ASCII. -/
theorem startKey_foreign (hs : IsForeign s) (stack : List Frame) :
    startKey stack s = .fault .keyNoString := by
  simp [startKey, isAscii_isBlank hs, hs.ne]

theorem Frame.ne_closer (hs : IsForeign s) (frame : Frame) : s ≠ frame.closer := by
  cases frame <;> exact hs.ne (by decide)

/-- What comes outside of ASCII ends the value, or it is a fault. -/
inductive Halts : Step → Prop
  | before : Halts .before
  | fault (fault : Fault) : Halts (.fault fault)

/-- Outside of ASCII nothing goes on behind a value, and all symbols there fail alike. -/
theorem afterValue_foreign (hs : IsForeign s) (ht : IsForeign t) (stack : List Frame) :
    afterValue stack s = afterValue stack t ∧ Halts (afterValue stack t) := by
  cases stack with
  | nil => exact ⟨rfl, .before⟩
  | cons frame outer =>
      simp [afterValue, isAscii_isBlank hs, isAscii_isBlank ht, hs.ne, ht.ne,
        frame.ne_closer hs, frame.ne_closer ht, Halts.fault]

/-- A number ends before what is outside of ASCII. -/
theorem afterDigits_foreign (hs : IsForeign s) (stack : List Frame) :
    afterDigits stack s = afterValue stack s := by
  simp [afterDigits, hs.ne]

theorem afterWhole_foreign (hs : IsForeign s) (stack : List Frame) :
    afterWhole stack s = afterValue stack s := by
  simp [afterWhole, hs.ne, afterDigits_foreign hs]

/-- What is still to come of a literal is ASCII. -/
def State.IsPlain : State → Prop
  | .literal more => ∀ c ∈ more, c.toNat < 0x80
  | _ => True

/-- The state that a step leads to. -/
def Step.IsPlain : Step → Prop
  | .next state _ => state.IsPlain
  | _ => True

theorem isPlain_close (stack : List Frame) : (close stack).IsPlain := by
  cases stack <;> trivial

theorem isPlain_startValue (stack : List Frame) (s : Option Char) :
    (startValue stack s).IsPlain := by
  unfold startValue
  split_ifs with hblank hdigit hzero
  rotate_right
  · split
    case h_1 | h_2 | h_3 => simp [Step.IsPlain, State.IsPlain]
    all_goals trivial
  all_goals trivial

theorem isPlain_startKey (stack : List Frame) (s : Option Char) : (startKey stack s).IsPlain := by
  unfold startKey
  split_ifs <;> trivial

theorem isPlain_afterValue (stack : List Frame) (s : Option Char) :
    (afterValue stack s).IsPlain := by
  rcases stack with _ | ⟨_ | _, outer⟩
  · trivial
  all_goals
    dsimp only [afterValue]
    split_ifs
    all_goals first | trivial | exact isPlain_close outer

/-- No step leads to a literal with letters outside of ASCII. -/
theorem isPlain_step [Medium] {state : State} (hplain : state.IsPlain) (stack : List Frame)
    (s : Option Char) (rest : Symbols) : (step state stack s rest).IsPlain := by
  have hafter := isPlain_afterValue stack s
  cases state with
  | value => exact isPlain_startValue stack s
  | key => exact isPlain_startKey stack s
  | opened =>
      rcases stack with _ | ⟨_ | _, outer⟩
      · trivial
      · dsimp only [step]
        split_ifs
        exacts [trivial, isPlain_close outer, isPlain_startValue _ s]
      · dsimp only [step]
        split_ifs
        exacts [trivial, isPlain_close outer, isPlain_startKey _ s]
  | ended => exact hafter
  | literal more =>
      rcases more with _ | ⟨c, _ | ⟨d, more⟩⟩
      · exact hafter
      · dsimp only [step]
        split_ifs
        · exact isPlain_close stack
        · trivial
      · dsimp only [step]
        split_ifs
        · exact (List.forall_mem_cons.mp hplain).2
        · trivial
  | _ =>
      dsimp only [step, afterWhole, afterDigits]
      split_ifs
      all_goals first | trivial | exact hafter | exact isPlain_close stack

/-- Outside of strings, a symbol outside of ASCII halts. -/
theorem step_foreign (h : Decodes (s :: u) (t :: v)) (hs : IsForeign s) (ht : IsForeign t)
    {state : State} (hplain : state.IsPlain) (stack : List Frame) :
    (∃ isKey, state = .string isKey) ∨
      @step .bytes state stack s u = step state stack t v ∧ Halts (step state stack t v) := by
  have hafter := afterValue_foreign hs ht stack
  cases state with
  | string isKey => exact .inl ⟨isKey, rfl⟩
  | hex isKey missing =>
      simp [step, hexValue?_foreign hs, hexValue?_foreign ht, hexFault_agree h, Halts.fault]
  | opened =>
      cases stack with
      | nil => exact .inr ⟨rfl, .before⟩
      | cons frame outer =>
          cases frame <;>
            simp [step, isAscii_isBlank hs, isAscii_isBlank ht, Frame.ne_closer hs,
              Frame.ne_closer ht, startValue_foreign hs, startValue_foreign ht,
              startKey_foreign hs, startKey_foreign ht, Halts.fault]
  | literal more =>
      cases more with
      | nil => simpa [step] using hafter
      | cons c more =>
          have hc := hplain c List.mem_cons_self
          cases more <;> simp [step, hs.ne hc, ht.ne hc, Halts.fault]
  | _ =>
      simp [step, isAscii_isBlank hs, isAscii_isBlank ht, isAscii_isDigit hs, isAscii_isDigit ht,
        startValue_foreign hs, startValue_foreign ht, startKey_foreign hs, startKey_foreign ht,
        afterWhole_foreign hs, afterWhole_foreign ht, afterDigits_foreign hs,
        afterDigits_foreign ht, hs.ne, ht.ne, hafter, Halts.fault]

/-- A character of ASCII does the same in bytes and in the text they are. -/
theorem step_ascii {c : Char} (h : Decodes (some c :: u) (some c :: v)) (state : State)
    (stack : List Frame) : @step .bytes state stack (some c) u = step state stack (some c) v := by
  cases state with
  | hex isKey missing => simp only [step, hexFault_agree h]
  | literal more => rcases more with _ | ⟨d, _ | _⟩ <;> rfl
  | _ => rfl

/-- Inside of a string everything outside of ASCII is passed over. -/
theorem step_string [Medium] (hs : IsForeign s) (isKey : Bool) (stack : List Frame)
    (rest : Symbols) : step (.string isKey) stack s rest = .next (.string isKey) stack := by
  simp [step, hs.ne, isAscii_isControl hs]

/-- Bytes outside of ASCII are passed over in a string. -/
theorem run_string_append {group : Symbols} (hgroup : ∀ s ∈ group, IsForeign s) (isKey : Bool)
    (stack : List Frame) (rest : Symbols) :
    @run .bytes (.string isKey) stack (group ++ rest) = @run .bytes (.string isKey) stack rest := by
  induction group with
  | nil => rfl
  | cons s group ih =>
      obtain ⟨hs, hgroup⟩ := List.forall_mem_cons.mp hgroup
      simpa only [List.cons_append, run, @step_string _ .bytes hs] using ih hgroup

theorem atEnd_agrees (state : State) (stack : List Frame) :
    Agrees Decodes (atEnd state stack) (atEnd state stack) := by
  have hend : Agrees Decodes (endOfValue stack) (endOfValue stack) := by
    cases stack with
    | nil => exact .ok ⟨[], rfl, rfl⟩
    | cons frame outer => exact .error _
  cases state
  case opened | ended | zero | whole | fraction | exponentDigits => exact hend
  all_goals exact .error _

/-- A value is passed over alike, by induction on the groups of the bytes. -/
theorem run_agrees {state : State} (hplain : state.IsPlain) (stack : List Frame)
    (bytes : List UInt8) : Agrees Decodes (@run .bytes state stack (bytes.map ofByte))
      (run state stack (symbols bytes)) := by
  induction bytes using groups_induction generalizing state stack with
  | nil => exact atEnd_agrees state stack
  | ascii b rest hascii ih =>
      have h : Decodes ((b :: rest).map ofByte) (symbols (b :: rest)) := ⟨_, rfl, rfl⟩
      rw [symbols_cons_ascii hascii, List.map_cons] at h ⊢
      have hstep := step_ascii h state stack
      have hnext := isPlain_step hplain stack (some (Char.ofNat b.toNat)) (symbols rest)
      simp only [run, ofByte] at h ⊢
      rw [hstep]
      cases hs : step state stack (some (Char.ofNat b.toNat)) (symbols rest) with
      | next state' stack' =>
          rw [hs] at hnext
          exact ih hnext stack'
      | last => exact .ok ⟨rest, rfl, rfl⟩
      | before => exact .ok h
      | fault fault => exact .error fault
  | foreign group rest t hgroup hall ht _ hsymbols ih =>
      have h : Decodes ((group ++ rest).map ofByte) (symbols (group ++ rest)) := ⟨_, rfl, rfl⟩
      have hforeign : ∀ s ∈ group.map ofByte, IsForeign s := by
        simpa using fun b hb => isForeign_ofByte (hall b hb)
      rw [hsymbols, List.map_append] at h ⊢
      cases hbytes : group.map ofByte with
      | nil => exact absurd (List.map_eq_nil_iff.mp hbytes) hgroup
      | cons s more =>
          rw [hbytes] at h hforeign
          rw [List.cons_append] at h
          rcases step_foreign h (hforeign s List.mem_cons_self) ht hplain stack with
            ⟨isKey, rfl⟩ | ⟨hstep, hhalts⟩
          · rw [run_string_append hforeign]
            simpa only [run, step_string ht] using ih hplain stack
          · rw [List.cons_append, @run.eq_def .bytes, run.eq_def]
            dsimp only
            rw [hstep]
            generalize step state stack t (symbols rest) = outcome at hhalts
            cases hhalts with
            | before => exact .ok h
            | fault fault => exact .error fault

/-- A value is skipped alike in bytes and in the text they are. -/
theorem value_agrees (h : Decodes u v) : Agrees Decodes (@value .bytes u) (value v) := by
  obtain ⟨bytes, rfl, rfl⟩ := h
  have hplain : State.value.IsPlain := trivial
  exact run_agrees hplain [] bytes

end Skip

/-! ## Strings that are read -/

/-- The symbol stands in a string for itself. -/
def IsPlain (s : Option Char) : Prop := s ≠ some '"' ∧ s ≠ some '\\' ∧ ¬isControl s

theorem IsPlain.of_foreign (hs : IsForeign s) : IsPlain s :=
  ⟨hs.ne (by decide), hs.ne (by decide), by simp [isAscii_isControl hs]⟩

/-- Symbols that are no end, no escape and no control character are gathered. -/
theorem readText_plains [Medium] {plain : Symbols} (hplain : ∀ s ∈ plain, IsPlain s)
    (read rest : Symbols) :
    readText read .nothing (plain ++ rest) = readText (plain.reverse ++ read) .nothing rest := by
  induction plain generalizing read with
  | nil => rfl
  | cons s plain ih =>
      obtain ⟨⟨hquote, hescape, hcontrol⟩, hplain⟩ := List.forall_mem_cons.mp hplain
      rw [List.cons_append, readText_plain hquote hescape hcontrol, ih hplain]
      simp

/-- The byte stands in a string for itself. -/
def isPlainByte (b : UInt8) : Bool := b != 0x22 && b != 0x5C && 0x20 ≤ b

theorem toByte_ofByte (b : UInt8) : toByte (ofByte b) = b := by
  simp [toByte, ofByte, toNat_ofNat_byte]

/-- The bytes gathered from a string are those of the symbols read from it, whatever follows
them, or whatever interrupts them if the string goes on with an escape. -/
def Gathers (still : Open) (gathered : List UInt8) (read : Symbols) : Prop :=
  ∀ rest, still = .nothing ∨ Interrupts rest → symbols (gathered ++ rest) = read ++ symbols rest

theorem gathers_nil : Gathers .nothing [] [] := fun _ _ => rfl

variable {still next : Open} {gathered : List UInt8} {read : Symbols}

theorem Gathers.of_open (hgathers : Gathers still gathered read) (hnext : next ≠ .nothing) :
    Gathers next gathered read :=
  fun rest hrest => hgathers rest (.inr (hrest.resolve_left hnext))

/-- The bytes of an escaped character complete what was gathered. -/
theorem Gathers.push (hgathers : Gathers still gathered read) (c : Char) :
    Gathers next (gathered ++ String.utf8EncodeChar c) (read ++ [some c]) := by
  intro rest _
  rw [List.append_assoc, hgathers _ (.inr (interrupts_utf8EncodeChar_append c rest)),
    symbols_utf8EncodeChar_append, List.append_assoc]
  rfl

/-- Bytes that stand for themselves are gathered up to the next one that does not. -/
theorem Gathers.append (hgathers : Gathers .nothing gathered read) (plain : List UInt8)
    (hnext : next ≠ .nothing) : Gathers next (gathered ++ plain) (read ++ symbols plain) := by
  intro rest hrest
  rw [List.append_assoc, hgathers _ (.inl rfl), symbols_append (hrest.resolve_left hnext),
    List.append_assoc]

/-- A character that an escape stands for is gathered as its bytes. -/
theorem push_bytes (c : Char) (gathered : List UInt8) :
    @push .bytes c (gathered.map ofByte).reverse =
      ((gathered ++ String.utf8EncodeChar c).map ofByte).reverse := by
  rw [List.map_append, List.reverse_append]
  rfl

/-- A quote ends the text, which is then decoded from what was gathered. -/
theorem readText_quote [Medium] (hs : s = some '"') (read rest : Symbols) :
    readText read .nothing (s :: rest) =
      match Medium.characters? read.reverse with
      | some cs => .ok (String.ofList cs, rest)
      | none => .error .invalidCharacter := by
  rw [readText]
  exact if_pos hs

theorem readText_backslash [Medium] (hs : s = some '\\') (read rest : Symbols) :
    readText read .nothing (s :: rest) = readText read .escape rest := by
  subst hs
  rw [readText, if_neg (by decide), if_pos rfl]

/-- A control character may not stand in a text. -/
theorem readText_control [Medium] (hs : isControl s) (read rest : Symbols) :
    readText read .nothing (s :: rest) = .error .controlCharacter := by
  have hquote : s ≠ some '"' := by
    rintro rfl
    exact absurd hs (by decide)
  have hescape : s ≠ some '\\' := by
    rintro rfl
    exact absurd hs (by decide)
  rw [readText, if_neg hquote, if_neg hescape, if_pos hs]

/-- The rest of a string in both media, given for all rests that are shorter. -/
structure Shorter (n : Nat) : Prop where
  agrees : ∀ {u v : Symbols} {still : Open} {gathered : List UInt8} {read : Symbols},
    u.length < n → Gathers still gathered read → Decodes u v →
      Agrees Along (@readText .bytes (gathered.map ofByte).reverse still u)
        (readText read.reverse still v)

/-- If what is shorter is read alike, so is what follows an escaped character. -/
theorem Shorter.push {n : Nat} (hshorter : Shorter n) (hlength : u.length < n)
    (hgathers : Gathers still gathered read) (h : Decodes u v) (c : Char) (next : Open) :
    Agrees Along (@readText .bytes (@Json.push .bytes c (gathered.map ofByte).reverse) next u)
      (readText (Json.push c read.reverse) next v) := by
  have hpushed : Gathers next _ _ := hgathers.push c
  have hagrees := hshorter.agrees hlength hpushed h
  rwa [push_bytes, push_text, ← List.reverse_concat']

/-- A unit that gives no character yet leaves its escape open. -/
theorem closeUnit_none {lead : Option Nat} {unit : Nat}
    (hclose : closeUnit lead unit = .ok (none, still)) : still ≠ .nothing := by
  unfold closeUnit at hclose
  split at hclose
  all_goals split_ifs at hclose
  all_goals cases hclose
  simp

/-- What is shorter is read alike, too, with anything left open. -/
theorem Shorter.goesOn {n : Nat} (hshorter : Shorter n) (hlength : u.length < n)
    (hgathers : Gathers still gathered read) (h : Decodes u v) (hnext : next ≠ .nothing) :
    Agrees Along (@readText .bytes (gathered.map ofByte).reverse next u)
      (readText read.reverse next v) :=
  hshorter.agrees hlength (hgathers.of_open hnext) h

/-- The letter behind a backslash stands for a character, or it is a `u`. -/
theorem Shorter.escape {n : Nat} (hshorter : Shorter n) (hlength : u.length < n)
    (hgathers : Gathers still gathered read) (hheads : Heads s t u v) :
    Agrees Along (@readText .bytes (gathered.map ofByte).reverse .escape (s :: u))
      (readText read.reverse .escape (t :: v)) := by
  rcases hheads.is 'u' (by decide) with ⟨rfl, rfl, hrest⟩ | ⟨hs, ht⟩
  · have hunit : Open.hex none 0 0 ≠ .nothing := by simp
    exact (hshorter.goesOn hlength hgathers hrest hunit :)
  cases hheads with
  | foreign hs' ht' =>
      simpa [readText, hs, ht, shortEscape?_foreign hs', shortEscape?_foreign ht'] using .error _
  | @ascii c u v hascii hrest =>
      simp only [readText, hs, if_false, Option.bind_some]
      cases shortEscape? c with
      | none => exact .error _
      | some d => exact hshorter.push hlength hgathers hrest d .nothing

/-- A digit goes on with its code unit or completes it. -/
theorem Shorter.hex {n : Nat} (hshorter : Shorter n) (hlength : u.length < n)
    (hgathers : Gathers still gathered read) (h : Decodes (s :: u) (t :: v))
    (hheads : Heads s t u v) (lead : Option Nat) (count value : Nat) :
    Agrees Along (@readText .bytes (gathered.map ofByte).reverse (.hex lead count value) (s :: u))
      (readText read.reverse (.hex lead count value) (t :: v)) := by
  cases hheads with
  | foreign hs ht =>
      simpa [readText, hexValue?_foreign hs, hexValue?_foreign ht, hexFault_agree h] using .error _
  | @ascii c u v hascii hrest =>
      simp only [readText, hexFault_agree h]
      cases hexValue? (some c) with
      | none => exact .error _
      | some digit =>
          dsimp only
          split_ifs
          · have hmore : Open.hex lead (count + 1) (value * 16 + digit) ≠ .nothing := by simp
            exact hshorter.goesOn hlength hgathers hrest hmore
          · cases hclose : closeUnit lead (value * 16 + digit) with
            | error fault => exact .error fault
            | ok closed =>
                rcases closed with ⟨_ | d, next⟩
                · exact hshorter.goesOn hlength hgathers hrest (closeUnit_none hclose)
                · exact hshorter.push hlength hgathers hrest d next

/-- What a symbol leads to while something is open. -/
theorem Shorter.opened {n : Nat} (hshorter : Shorter n) (hlength : u.length = n)
    (hopen : still ≠ .nothing) (hgathers : Gathers still gathered read) (h : Decodes u v) :
    Agrees Along (@readText .bytes (gathered.map ofByte).reverse still u)
      (readText read.reverse still v) := by
  subst hlength
  cases h.fronts with
  | nil => cases still <;> exact .error _
  | @cons s t u v hheads =>
      have hlt : u.length < (s :: u).length := Nat.lt_succ_self _
      cases still with
      | nothing => exact absurd rfl hopen
      | escape => exact hshorter.escape hlt hgathers hheads
      | hex lead count value => exact hshorter.hex hlt hgathers h hheads lead count value
      | pairEscape lead =>
          rcases hheads.is '\\' (by decide) with ⟨rfl, rfl, hrest⟩ | ⟨hs, ht⟩
          · have hletter : Open.pairLetter lead ≠ .nothing := by simp
            exact (hshorter.goesOn hlt hgathers hrest hletter :)
          · simpa [readText, hs, ht] using .error _
      | pairLetter lead =>
          rcases hheads.is 'u' (by decide) with ⟨rfl, rfl, hrest⟩ | ⟨hs, ht⟩
          · have hunit : Open.hex (some lead) 0 0 ≠ .nothing := by simp
            exact (hshorter.goesOn hlt hgathers hrest hunit :)
          · simpa [readText, hs, ht] using .error _

/-- The characters of a string are those that its bytes make up when it has ended. -/
theorem characters?_bytes (gathered : List UInt8) :
    @Medium.characters? .bytes (gathered.map ofByte).reverse.reverse =
      characters? (symbols gathered) := by
  have hbytes : (gathered.map ofByte).map toByte = gathered := by
    have hid : toByte ∘ ofByte = id := funext toByte_ofByte
    rw [List.map_map, hid, List.map_id]
  rw [List.reverse_reverse]
  exact congrArg (characters? <| symbols ·) hbytes

theorem isPlain_ofByte {b : UInt8} (hplain : isPlainByte b) : IsPlain (ofByte b) := by
  simp only [isPlainByte, Bool.and_eq_true, bne_iff_ne, decide_eq_true_eq] at hplain
  obtain ⟨⟨hquote, hescape⟩, hcontrol⟩ := hplain
  have hbyte := toByte_ofByte b
  refine ⟨fun heq => hquote ?_, fun heq => hescape ?_, ?_⟩
  · rw [← hbyte, heq]
    rfl
  · rw [← hbyte, heq]
    rfl
  · have hle : 0x20 ≤ b.toNat := UInt8.le_iff_toNat_le.mp hcontrol
    simp only [ofByte, isControl, toNat_ofNat_byte, decide_eq_true_eq]
    omega

/-- Bytes that continue a sequence are neither quotes nor escapes. -/
theorem isPlainByte_continuation {b : UInt8} (hcontinuation : isContinuation b) :
    isPlainByte b := by
  rw [isContinuation, Bool.and_eq_true, decide_eq_true_eq] at hcontinuation
  have hle : 0x80 ≤ b.toNat := UInt8.le_iff_toNat_le.mp hcontinuation.1
  simp only [isPlainByte, Bool.and_eq_true, bne_iff_ne, decide_eq_true_eq]
  refine ⟨⟨?_, ?_⟩, UInt8.le_iff_toNat_le.mpr ?_⟩
  · rintro rfl
    exact absurd hle (by decide)
  · rintro rfl
    exact absurd hle (by decide)
  · exact Nat.le_trans (by decide) hle

/-- A byte that does not stand for itself is a quote, a backslash or a control character. -/
theorem of_not_isPlainByte {b : UInt8} (hstop : isPlainByte b = false) :
    b = 0x22 ∨ b = 0x5C ∨ b < 0x20 := by
  by_contra hplain
  obtain ⟨hquote, hescape, hcontrol⟩ : b ≠ 0x22 ∧ b ≠ 0x5C ∧ ¬b < 0x20 := by
    simpa only [not_or] using hplain
  simp [isPlainByte, hquote, hescape, UInt8.not_lt.mp hcontrol] at hstop

/-- Bytes that stand for themselves come first, up to one that does not. -/
theorem exists_plain (bytes : List UInt8) : ∃ plain rest, bytes = plain ++ rest ∧
    (∀ b ∈ plain, isPlainByte b) ∧ ∀ b ∈ rest.head?, isPlainByte b = false := by
  refine ⟨bytes.takeWhile isPlainByte, bytes.dropWhile isPlainByte,
    List.takeWhile_append_dropWhile.symm, List.all_eq_true.mp List.all_takeWhile, ?_⟩
  intro b hb
  have hnot := List.head?_dropWhile_not isPlainByte bytes
  rw [hb] at hnot
  exact hnot

/-- What a byte leads to that does not stand for itself: the end of the text, an escape or a
fault. -/
theorem Shorter.stop {n : Nat} {b : UInt8} {rest : List UInt8} (hshorter : Shorter n)
    (hlength : rest.length < n) (hgathers : ∀ next, next ≠ .nothing → Gathers next gathered read)
    (hstop : isPlainByte b = false) :
    Agrees Along (@readText .bytes (gathered.map ofByte).reverse .nothing ((b :: rest).map ofByte))
      (readText read.reverse .nothing (symbols (b :: rest))) := by
  have hrest : Decodes (rest.map ofByte) (symbols rest) := ⟨rest, rfl, rfl⟩
  have hb := of_not_isPlainByte hstop
  have hascii : b < 0x80 := by
    rcases hb with rfl | rfl | hcontrol
    · decide
    · decide
    · exact UInt8.lt_trans hcontrol (by decide)
  rw [symbols_cons_ascii hascii, List.map_cons]
  change Agrees Along (@readText .bytes _ .nothing (ofByte b :: rest.map ofByte))
    (readText _ .nothing (ofByte b :: symbols rest))
  rcases hb with rfl | rfl | hcontrol
  · have hs : ofByte 0x22 = some '"' := rfl
    have hclosed := hgathers .escape (by simp) [] (.inr (by simp [Interrupts]))
    rw [symbols_nil, List.append_nil, List.append_nil] at hclosed
    rw [@readText_quote _ .bytes hs, readText_quote hs, characters?_bytes, hclosed,
      List.reverse_reverse]
    cases hcharacters : characters? read with
    | none => simpa [hcharacters] using .error _
    | some cs => simpa [hcharacters] using .ok ⟨rfl, hrest⟩
  · have hs : ofByte 0x5C = some '\\' := rfl
    rw [@readText_backslash _ .bytes hs, readText_backslash hs]
    exact hshorter.agrees (by rwa [List.length_map]) (hgathers .escape (by simp)) hrest
  · have hs : isControl (ofByte b) := by
      have hlt : b.toNat < 0x20 := UInt8.lt_iff_toNat_lt.mp hcontrol
      simpa only [ofByte, isControl, toNat_ofNat_byte, decide_eq_true_eq] using hlt
    rw [@readText_control _ .bytes hs, readText_control hs]
    exact .error _

/-- What goes on behind the symbols that stand for themselves. -/
theorem Shorter.nothing {bytes : List UInt8} (hshorter : Shorter bytes.length)
    (hgathers : Gathers .nothing gathered read) :
    Agrees Along (@readText .bytes (gathered.map ofByte).reverse .nothing (bytes.map ofByte))
      (readText read.reverse .nothing (symbols bytes)) := by
  obtain ⟨plain, rest, hbytes, hplain, hstop⟩ := exists_plain bytes
  have hinterrupts : Interrupts rest :=
    fun b hb hcontinuation => Bool.false_ne_true
      ((hstop b hb).symm.trans (isPlainByte_continuation hcontinuation))
  have hbytesPlain : ∀ s ∈ plain.map ofByte, IsPlain s := by
    simpa using fun b hb => isPlain_ofByte (hplain b hb)
  have htextPlain : ∀ s ∈ symbols plain, IsPlain s := by
    intro s hs
    rcases of_mem_symbols hs with hforeign | ⟨b, hb, rfl⟩
    · exact .of_foreign hforeign
    · exact isPlain_ofByte (hplain b hb)
  rw [hbytes, symbols_append hinterrupts, List.map_append, @readText_plains .bytes _ hbytesPlain,
    readText_plains htextPlain, ← List.reverse_append, ← List.map_append, ← List.reverse_append]
  cases rest with
  | nil => exact .error _
  | cons b rest =>
      have hlength : rest.length < bytes.length := by
        rw [hbytes, List.length_append, List.length_cons]
        omega
      exact hshorter.stop hlength (fun next hnext => hgathers.append plain hnext) (hstop b rfl)

/-- A text is read alike from bytes and from the symbols they are, whatever was gathered so far. -/
theorem readText_agrees (hgathers : Gathers still gathered read) (h : Decodes u v) :
    Agrees Along (@readText .bytes (gathered.map ofByte).reverse still u)
      (readText read.reverse still v) := by
  induction hlength : u.length using Nat.strongRecOn generalizing still gathered read u v with
  | _ n ih =>
      have hshorter : Shorter n := ⟨fun hlt hgathers h => ih _ hlt hgathers h rfl⟩
      by_cases hopen : still = .nothing
      · subst hopen
        obtain ⟨bytes, rfl, rfl⟩ := h
        rw [List.length_map] at hlength
        subst hlength
        exact hshorter.nothing hgathers
      · exact hshorter.opened hlength hopen hgathers h

/-- A string is read alike from bytes and from the text they are. -/
theorem alike_readString : Alike (@readString .bytes) readString :=
  fun _ _ h => readText_agrees gathers_nil h

end TimingReport.Json
