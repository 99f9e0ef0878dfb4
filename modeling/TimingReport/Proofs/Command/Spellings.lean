import Mathlib.Data.List.TakeWhile
import TimingReport.Command.Arguments
import TimingReport.Proofs.Outcome

/-!
# Command lines read back

A setting of a command line can be spelled in several ways, and settings may stand in any
order. However they are spelled, the line is read as if its settings were made one after
another, so distinct settings give exactly the options that they state, and a setting that
is made twice is refused.
-/

namespace TimingReport.Command

/-! ## Settings and their spellings -/

/-- What a command line may state. -/
inductive Setting where
  | valued (name : Valued) (value : String)
  | quiet

namespace Setting

/-- The option that a setting is about. -/
def name : Setting → Name
  | valued name _ => .valued name
  | quiet => .switch .quiet

/-- The value can stand in any spelling, and if it is to name a format, it does. -/
def IsPlain : Setting → Prop
  | valued name value =>
      (∃ c rest, value.toList = c :: rest ∧ c ≠ '-' ∧ c ≠ '=') ∧
        (name = .format → ∃ format, Format.ofText value = .ok format)
  | quiet => True

/-- The arguments that a setting is spelled with. -/
inductive Spelled : Setting → List String → Prop
  | long (name : Valued) (value : String) :
      Spelled (valued name value) ["--" ++ (Name.valued name).long, value]
  | longAttached (name : Valued) (value : String) :
      Spelled (valued name value) ["--" ++ (Name.valued name).long ++ "=" ++ value]
  | letter {name : Valued} {c : Char} (value : String)
      (hletter : (Name.valued name).letter? = some c) :
      Spelled (valued name value) [String.ofList ['-', c], value]
  | letterAttached {name : Valued} {c : Char} (value : String)
      (hletter : (Name.valued name).letter? = some c) :
      Spelled (valued name value) [String.ofList ['-', c] ++ value]
  | letterEquals {name : Valued} {c : Char} (value : String)
      (hletter : (Name.valued name).letter? = some c) :
      Spelled (valued name value) [String.ofList ['-', c] ++ "=" ++ value]
  | quiet : Spelled quiet ["--quiet"]
  | quietLetter : Spelled quiet ["-q"]

/-- The arguments that settings are spelled with, one behind another. -/
inductive AllSpelled : List Setting → List String → Prop
  | nil : AllSpelled [] []
  | cons {setting : Setting} {rest : List Setting} {arguments others : List String}
      (hsetting : setting.Spelled arguments) (hrest : AllSpelled rest others) :
      AllSpelled (setting :: rest) (arguments ++ others)

/-- The reading with a setting made. -/
def make (r : Reading) : Setting → Except Refusal Reading
  | valued name value => r.setValue name value
  | quiet => r.takeSwitch .quiet

end Setting

/-! ## Names of options -/

namespace Name

/-- A long name is found under its own spelling. -/
theorem ofLong?_long (name : Name) : ofLong? name.long.toList = some name := by
  rcases name with name | name <;> cases name <;> decide

/-- A letter is found under its option. -/
theorem ofLetter?_of_letter? {name : Name} {c : Char} (hletter : name.letter? = some c) :
    ofLetter? c = some name := by
  rcases name with name | name <;> cases name <;> cases hletter <;> decide

theorem ne_dash_of_letter? {name : Name} {c : Char} (hletter : name.letter? = some c) :
    c ≠ '-' := by
  rcases name with name | name <;> cases name <;> cases hletter <;> decide

theorem long_ne_nil (name : Name) : name.long.toList ≠ [] := by
  rcases name with name | name <;> cases name <;> decide

theorem notMem_long (name : Name) : '=' ∉ name.long.toList := by
  rcases name with name | name <;> cases name <;> decide

end Name

/-! ## Single arguments -/

namespace Reading

variable {r base next : Reading}

/-- A long name alone takes its value from the next argument, if it has one. -/
theorem takeLong_long (name : Name) :
    r.takeLong name.long.toList =
      match name with
      | .valued name => r.takeValued name none
      | .switch name => r.takeSwitch name := by
  have hall : ∀ c ∈ name.long.toList, decide (c ≠ '=') = true := fun c hc =>
    decide_eq_true fun heq => name.notMem_long (heq ▸ hc)
  unfold takeLong
  rw [List.takeWhile_eq_self_iff.mpr hall, List.dropWhile_eq_nil_iff.mpr hall]
  dsimp only
  rw [Name.ofLong?_long]
  cases name <;> rfl

/-- Behind a long name and a sign stands the value. -/
theorem takeLong_long_sign (name : Valued) (value : String) :
    r.takeLong ((Name.valued name).long.toList ++ '=' :: value.toList) =
      r.takeValued name (some value) := by
  have hall : ∀ c ∈ (Name.valued name).long.toList, decide (c ≠ '=') = true := fun c hc =>
    decide_eq_true fun heq => (Name.valued name).notMem_long (heq ▸ hc)
  have hsign : decide ('=' ≠ '=') = false := by decide
  unfold takeLong
  rw [List.takeWhile_append_of_pos hall, List.dropWhile_append_of_pos hall]
  simp only [List.takeWhile_cons, List.dropWhile_cons, hsign, List.append_nil, Name.ofLong?_long,
    String.ofList_toList, Bool.false_eq_true, if_false]

/-- What stands directly behind a letter is the value. -/
theorem takeLetters_value {name : Valued} {c : Char}
    (hletter : (Name.valued name).letter? = some c) {d : Char} (hsign : d ≠ '=')
    (rest : List Char) :
    r.takeLetters (c :: d :: rest) = r.takeValued name (some (String.ofList (d :: rest))) := by
  rw [takeLetters, Name.ofLetter?_of_letter? hletter]
  dsimp only
  split
  next heq => cases heq
  next heq => exact absurd (List.cons.inj heq).1 hsign
  next => rfl

/-- A sign behind a letter is no part of the value. -/
theorem takeLetters_sign {name : Valued} {c : Char}
    (hletter : (Name.valued name).letter? = some c) (value : String) :
    r.takeLetters (c :: '=' :: value.toList) = r.takeValued name (some value) := by
  rw [takeLetters, Name.ofLetter?_of_letter? hletter]
  dsimp only
  exact congrArg (fun text => r.takeValued name (some text)) String.ofList_toList

/-- A letter of a switch stands alone. -/
theorem takeLetters_switch {name : Switch} {c : Char}
    (hletter : (Name.switch name).letter? = some c) :
    r.takeLetters [c] = r.takeSwitch name := by
  rw [takeLetters, Name.ofLetter?_of_letter? hletter]
  exact bind_pure _

section Take

variable (hover : r.isOver = false)
include hover

/-- Two dashes start a long name. -/
theorem take_dashes {text : List Char} (htext : text ≠ []) {argument : String}
    (hargument : argument.toList = '-' :: '-' :: text) : r.take argument = r.takeLong text := by
  obtain ⟨c, rest, rfl⟩ := List.exists_cons_of_ne_nil htext
  rw [take, hover, hargument]
  rfl

/-- One dash starts letters. -/
theorem take_dash {c : Char} (hc : c ≠ '-') {rest : List Char} {argument : String}
    (hargument : argument.toList = '-' :: c :: rest) :
    r.take argument = r.takeLetters (c :: rest) := by
  rw [take, hover, hargument, if_neg Bool.false_ne_true]
  split
  next heq => simp_all
  next heq => simp_all
  next heq =>
    cases heq
    rfl
  next hnone => exact absurd rfl (hnone c rest)

/-- A value that stands apart does not look like an option. -/
theorem take_value {c : Char} (hc : c ≠ '-') {rest : List Char} {value : String}
    (hvalue : value.toList = c :: rest) : r.take value = r.takeOperand value := by
  rw [take, hover, hvalue, if_neg Bool.false_ne_true]
  split <;> simp_all

end Take

/-! ## Chunks of arguments -/

/-- Looking at the pending value leaves none. -/
theorem of_settle (hsettle : r.settle = .ok base) :
    base.pending = none ∧ base.isOver = r.isOver := by
  unfold settle setValue at hsettle
  split at hsettle
  next hpending =>
    cases hsettle
    exact ⟨hpending, rfl⟩
  next => cases hsettle
  next =>
    split at hsettle
    · cases hsettle
    · obtain ⟨options, _, rfl⟩ := Outcome.map_eq_ok_iff.mp hsettle
      exact ⟨rfl, rfl⟩

theorem settle_of_pending (hpending : r.pending = none) : r.settle = .ok r := by
  rw [settle, hpending]

/-- A setting leaves no value to come. -/
theorem of_make {setting : Setting} (hpending : r.pending = none)
    (hmake : setting.make r = .ok next) :
    next.pending = none ∧ next.isOver = r.isOver := by
  cases setting with
  | valued name value =>
      unfold Setting.make setValue at hmake
      dsimp only at hmake
      split at hmake
      · cases hmake
      · obtain ⟨options, _, rfl⟩ := Outcome.map_eq_ok_iff.mp hmake
        exact ⟨hpending, rfl⟩
  | quiet =>
      obtain ⟨base, hbase, hnext⟩ := Outcome.bind_eq_ok_iff.mp hmake
      obtain ⟨hnone, hover⟩ := of_settle hbase
      dsimp only at hnext
      split at hnext
      · cases hnext
      · cases hnext
        exact ⟨hnone, hover⟩

/-- A switch is made as soon as what came before is settled. -/
theorem takeSwitch_quiet : r.takeSwitch .quiet = r.settle >>= Setting.quiet.make := by
  cases hsettle : r.settle with
  | error refusal =>
      rw [takeSwitch, hsettle]
      rfl
  | ok base =>
      change _ = base.takeSwitch .quiet
      rw [takeSwitch, takeSwitch, hsettle, settle_of_pending (of_settle hsettle).1]

/-- Whatever was read before, the arguments are read as the setting, up to a value that is
still to be looked at. -/
def ReadsAs (arguments : List String) (setting : Setting) : Prop :=
  ∀ r : Reading, r.isOver = false →
    (∀ next, arguments.foldlM take r = .ok next → next.isOver = false) ∧
    arguments.foldlM take r >>= settle = r.settle >>= setting.make

/-- The argument is read in one step that makes the setting. -/
theorem ReadsAs.of_take {argument : String} {setting : Setting}
    (htake : ∀ r : Reading, r.isOver = false → r.take argument = r.settle >>= setting.make) :
    ReadsAs [argument] setting := by
  intro r hover
  have hfold : [argument].foldlM take r = r.settle >>= setting.make := by
    rw [List.foldlM_cons, htake r hover]
    exact bind_pure _
  rw [hfold]
  cases hsettle : r.settle with
  | error refusal => exact ⟨fun next hnext => (nomatch hnext), rfl⟩
  | ok base =>
      obtain ⟨hpending, hbase⟩ := of_settle hsettle
      change (∀ next, setting.make base = .ok next → next.isOver = false) ∧
        setting.make base >>= settle = setting.make base
      cases hmake : setting.make base with
      | error refusal => exact ⟨fun next hnext => (nomatch hnext), rfl⟩
      | ok next =>
          obtain ⟨hnone, hnext⟩ := of_make hpending hmake
          refine ⟨fun other hother => ?_, settle_of_pending hnone⟩
          cases hother
          rw [hnext, hbase, hover]

/-- The argument asks for a value, and the next one is the value. -/
theorem ReadsAs.of_apart {argument : String} {name : Valued} {c : Char} {rest : List Char}
    {value : String} (hc : c ≠ '-') (hvalue : value.toList = c :: rest)
    (htake : ∀ r : Reading, r.isOver = false → r.take argument = r.takeValued name none) :
    ReadsAs [argument, value] (.valued name value) := by
  intro r hover
  rw [List.foldlM_cons, htake r hover, takeValued]
  cases hsettle : r.settle with
  | error refusal => exact ⟨fun next hnext => (nomatch hnext), rfl⟩
  | ok base =>
      obtain ⟨hpending, hbase⟩ := of_settle hsettle
      have hopen : base.isOver = false := hbase.trans hover
      -- the value is not looked at before the next option comes, but it is the same value then
      have htaken : Reading.take { base with pending := some (name, none) } value =
          .ok { base with pending := some (name, some value) } :=
        take_value (r := { base with pending := some (name, none) }) hopen hc hvalue
      change (∀ next, [value].foldlM take { base with pending := some (name, none) } = .ok next →
        next.isOver = false) ∧
          [value].foldlM take { base with pending := some (name, none) } >>= settle =
            base.setValue name value
      rw [List.foldlM_cons, htaken]
      refine ⟨fun next hnext => ?_, ?_⟩
      · cases hnext
        exact hopen
      · change Reading.setValue { base with pending := none } name value = _
        rw [← hpending]

end Reading

open Reading

/-- However a setting is spelled, its arguments are read as the setting. -/
theorem Setting.Spelled.readsAs {setting : Setting} {arguments : List String}
    (hspelled : setting.Spelled arguments) (hplain : setting.IsPlain) :
    ReadsAs arguments setting := by
  cases hspelled with
  | long name value =>
      obtain ⟨⟨d, rest, hvalue, hdash, _⟩, _⟩ := hplain
      refine .of_apart hdash hvalue fun r hover => ?_
      rw [take_dashes hover (Name.long_ne_nil _) String.toList_append, takeLong_long]
  | longAttached name value =>
      refine .of_take fun r hover => ?_
      have htext : ("--" ++ (Name.valued name).long ++ "=" ++ value).toList =
          '-' :: '-' :: ((Name.valued name).long.toList ++ '=' :: value.toList) := by
        simp
      rw [take_dashes hover (by simp) htext, takeLong_long_sign]
      rfl
  | @letter name c value hletter =>
      obtain ⟨⟨d, rest, hvalue, hdash, _⟩, _⟩ := hplain
      refine .of_apart hdash hvalue fun r hover => ?_
      rw [take_dash hover (Name.ne_dash_of_letter? hletter) String.toList_ofList, takeLetters,
        Name.ofLetter?_of_letter? hletter]
  | @letterAttached name c value hletter =>
      obtain ⟨⟨d, rest, hvalue, _, hsign⟩, _⟩ := hplain
      have htext : (String.ofList ['-', c] ++ value).toList = '-' :: c :: d :: rest := by
        simp [hvalue]
      refine .of_take fun r hover => ?_
      rw [take_dash hover (Name.ne_dash_of_letter? hletter) htext,
        takeLetters_value hletter hsign, ← hvalue, String.ofList_toList]
      rfl
  | @letterEquals name c value hletter =>
      have htext : (String.ofList ['-', c] ++ "=" ++ value).toList =
          '-' :: c :: '=' :: value.toList := by
        simp
      refine .of_take fun r hover => ?_
      rw [take_dash hover (Name.ne_dash_of_letter? hletter) htext, takeLetters_sign hletter]
      rfl
  | quiet =>
      refine .of_take fun r hover => ?_
      rw [take_dashes hover (Name.long_ne_nil (.switch .quiet)) rfl, takeLong_long]
      exact takeSwitch_quiet
  | quietLetter =>
      refine .of_take fun r hover => ?_
      have hletter : (Name.switch .quiet).letter? = some 'q' := rfl
      rw [take_dash hover (Name.ne_dash_of_letter? hletter) rfl, takeLetters_switch hletter]
      exact takeSwitch_quiet

variable {settings : List Setting} {arguments : List String}

/-- The arguments of settings are read as the settings, one behind another. -/
theorem Setting.AllSpelled.foldlM_take (hspelled : AllSpelled settings arguments)
    (hplain : ∀ setting ∈ settings, setting.IsPlain) {r : Reading} (hover : r.isOver = false) :
    arguments.foldlM take r >>= settle = r.settle >>= settings.foldlM Setting.make := by
  induction hspelled generalizing r with
  | nil => exact (bind_pure _).symm
  | @cons setting rest arguments others hsetting hrest ih =>
      obtain ⟨hfirst, hothers⟩ := List.forall_mem_cons.mp hplain
      obtain ⟨hopen, hchunk⟩ := hsetting.readsAs hfirst r hover
      calc
        (arguments ++ others).foldlM take r >>= settle
          = arguments.foldlM take r >>= fun next => others.foldlM take next >>= settle := by
            rw [List.foldlM_append, bind_assoc]
        _ = arguments.foldlM take r >>= fun next =>
              next.settle >>= rest.foldlM Setting.make := by
            cases hread : arguments.foldlM take r with
            | error refusal => rfl
            | ok next => exact ih hothers (hopen next hread)
        _ = (r.settle >>= setting.make) >>= rest.foldlM Setting.make := by
            rw [← hchunk, bind_assoc]
        _ = r.settle >>= (setting :: rest).foldlM Setting.make := bind_assoc _ _ _

/-- Arguments that spell settings are read by making these in order. -/
theorem Options.ofArguments_of_allSpelled (hspelled : Setting.AllSpelled settings arguments)
    (hplain : ∀ setting ∈ settings, setting.IsPlain) :
    ofArguments arguments = (settings.foldlM Setting.make {}).map Reading.options := by
  have hread : arguments.foldlM take {} >>= settle = settings.foldlM Setting.make {} :=
    hspelled.foldlM_take hplain rfl
  rw [← hread, ofArguments]
  cases arguments.foldlM take {} with
  | error refusal => rfl
  | ok next =>
      change next.settle >>= _ = next.settle.map options
      cases next.settle <;> rfl

/-! ## Settings one after another -/

/-- The options state the settings and nothing else. -/
structure Options.States (options : Options) (settings : List Setting) : Prop where
  input : ∀ value, options.input = some value ↔ .valued .input value ∈ settings
  output : ∀ value, options.output = some value ↔ .valued .output value ∈ settings
  format : ∀ format, options.format = some format ↔
    ∃ value, .valued .format value ∈ settings ∧ Format.ofText value = .ok format
  config : ∀ value, options.config = some value ↔ .valued .config value ∈ settings
  title : ∀ value, options.title = some value ↔ .valued .title value ∈ settings
  quiet : options.quiet = true ↔ .quiet ∈ settings

/-- The switch is stated by setting it. -/
theorem Options.States.withQuiet {options : Options} (hstates : options.States settings) :
    Options.States { options with quiet := true } (settings ++ [.quiet]) where
  input := by simpa using hstates.input
  output := by simpa using hstates.output
  format := by simpa using hstates.format
  config := by simpa using hstates.config
  title := by simpa using hstates.title
  quiet := by simp

/-- A plain value of an option that has none yet is assigned to it. -/
theorem Options.States.assign {options : Options} {name : Valued} {value : String}
    (hstates : options.States settings) (hplain : (Setting.valued name value).IsPlain)
    (hfresh : ∀ other, Setting.valued name other ∉ settings) :
    ∃ next, assign options name value = .ok next ∧
      next.States (settings ++ [.valued name value]) := by
  obtain ⟨⟨c, rest, hvalue, _⟩, hformat⟩ := hplain
  have hpath : pathOf name value = .ok value := by
    have hne : value ≠ "" := fun heq => by simp [heq] at hvalue
    exact if_neg (by simpa using hne)
  obtain ⟨hinput, houtput, hformats, hconfig, htitle, hquiet⟩ := hstates
  cases name with
  | input =>
      refine ⟨{ options with input := some value }, by rw [Reading.assign, hpath]; rfl, ?_⟩
      exact ⟨by simp [hfresh, eq_comm], by simpa using houtput, by simpa using hformats,
        by simpa using hconfig, by simpa using htitle, by simpa using hquiet⟩
  | output =>
      refine ⟨{ options with output := some value }, by rw [Reading.assign, hpath]; rfl, ?_⟩
      exact ⟨by simpa using hinput, by simp [hfresh, eq_comm], by simpa using hformats,
        by simpa using hconfig, by simpa using htitle, by simpa using hquiet⟩
  | format =>
      obtain ⟨format, hword⟩ := hformat rfl
      refine ⟨{ options with format := some format }, by rw [Reading.assign, hword], ?_⟩
      exact ⟨by simpa using hinput, by simpa using houtput, by simp [hfresh, hword, eq_comm],
        by simpa using hconfig, by simpa using htitle, by simpa using hquiet⟩
  | config =>
      refine ⟨{ options with config := some value }, by rw [Reading.assign, hpath]; rfl, ?_⟩
      exact ⟨by simpa using hinput, by simpa using houtput, by simpa using hformats,
        by simp [hfresh, eq_comm], by simpa using htitle, by simpa using hquiet⟩
  | title =>
      refine ⟨{ options with title := some value }, rfl, ?_⟩
      exact ⟨by simpa using hinput, by simpa using houtput, by simpa using hformats,
        by simpa using hconfig, by simp [hfresh, eq_comm], by simpa using hquiet⟩

/-- The reading after exactly these settings were made. -/
structure Reading.Made (r : Reading) (settings : List Setting) : Prop where
  states : r.options.States settings
  seen : ∀ name, name ∈ r.seen ↔ name ∈ settings.map Setting.name
  pending : r.pending = none

namespace Reading.Made

variable {r : Reading} {setting : Setting}

theorem initial : Made {} [] :=
  ⟨⟨by simp, by simp, by simp, by simp, by simp, by simp⟩, by simp, rfl⟩

/-- An option that is set is refused. -/
theorem make_repeated (hmade : r.Made settings) (hname : setting.name ∈ settings.map Setting.name) :
    setting.make r = .error (.repeated setting.name) := by
  have hseen : r.seen.contains setting.name = true :=
    List.contains_iff_mem.mpr ((hmade.seen _).mpr hname)
  cases setting with
  | valued name value => exact if_pos hseen
  | quiet =>
      change r.takeSwitch .quiet = _
      rw [takeSwitch, settle_of_pending hmade.pending]
      exact if_pos hseen

/-- An option that is not set yet is set. -/
theorem make_fresh (hmade : r.Made settings) (hplain : setting.IsPlain)
    (hname : setting.name ∉ settings.map Setting.name) :
    ∃ next, setting.make r = .ok next ∧ next.Made (settings ++ [setting]) := by
  have hseen : ¬r.seen.contains setting.name := by
    rw [List.contains_iff_mem, hmade.seen]
    exact hname
  have hnames : ∀ name, name ∈ setting.name :: r.seen ↔
      name ∈ (settings ++ [setting]).map Setting.name := by
    intro name
    rw [List.mem_cons, hmade.seen, List.map_append, List.mem_append, or_comm]
    simp
  cases setting with
  | quiet =>
      let options := { r.options with quiet := true }
      refine ⟨{ r with options, seen := .switch .quiet :: r.seen }, ?_,
        hmade.states.withQuiet, hnames, hmade.pending⟩
      change r.takeSwitch .quiet = _
      rw [takeSwitch, settle_of_pending hmade.pending]
      exact if_neg hseen
  | valued name value =>
      have hfresh : ∀ other, Setting.valued name other ∉ settings := fun other hmem =>
        hname (List.mem_map.mpr ⟨_, hmem, rfl⟩)
      obtain ⟨options, hassign, hstates⟩ := hmade.states.assign hplain hfresh
      refine ⟨{ r with options, seen := .valued name :: r.seen }, ?_, hstates, hnames,
        hmade.pending⟩
      have hset : r.setValue name value = (Reading.assign r.options name value).map fun options =>
          { r with options, seen := .valued name :: r.seen } := if_neg hseen
      change r.setValue name value = _
      rw [hset, hassign]
      rfl

/-- Distinct settings are made one after another. -/
theorem foldlM_make {made : List Setting} (hmade : r.Made made)
    (hplain : ∀ setting ∈ settings, setting.IsPlain)
    (hnodup : ((made ++ settings).map Setting.name).Nodup) :
    ∃ next, settings.foldlM Setting.make r = .ok next ∧ next.Made (made ++ settings) := by
  induction settings generalizing r made with
  | nil => exact ⟨r, rfl, by rwa [List.append_nil]⟩
  | cons setting rest ih =>
      obtain ⟨hfirst, hothers⟩ := List.forall_mem_cons.mp hplain
      have happend : made ++ setting :: rest = (made ++ [setting]) ++ rest := by simp
      rw [happend] at hnodup ⊢
      have hname : setting.name ∉ made.map Setting.name := by
        rw [List.map_append, List.map_append, List.nodup_append] at hnodup
        have hdistinct := (List.nodup_append.mp hnodup.1).2.2
        exact fun hmem => hdistinct _ hmem _ List.mem_cons_self rfl
      obtain ⟨next, hmake, hnext⟩ := hmade.make_fresh hfirst hname
      obtain ⟨last, hrest, hlast⟩ := ih hnext hothers hnodup
      exact ⟨last, by rw [List.foldlM_cons, hmake]; exact hrest, hlast⟩

/-- The first setting whose option is set already is refused. -/
theorem foldlM_make_repeated {before behind : List Setting} (hmade : r.Made [])
    (hplain : ∀ setting ∈ before, setting.IsPlain) (hnodup : (before.map Setting.name).Nodup)
    (hname : setting.name ∈ before.map Setting.name) :
    (before ++ setting :: behind).foldlM Setting.make r = .error (.repeated setting.name) := by
  obtain ⟨next, hbefore, hnext⟩ := hmade.foldlM_make hplain hnodup
  rw [List.foldlM_append, hbefore]
  change setting.make next >>= _ = _
  rw [hnext.make_repeated hname]
  rfl

end Reading.Made

/-! ## Command lines -/

/-- Settings of distinct options, however they are spelled and in whatever order they stand,
give exactly the options that they state. A setting of an option that another one sets is
refused as a repetition, wherever in the line it stands. -/
theorem Options.ofArguments_of_spelled (hspelled : Setting.AllSpelled settings arguments)
    (hplain : ∀ setting ∈ settings, setting.IsPlain) :
    ((settings.map Setting.name).Nodup →
      ∃ options, ofArguments arguments = .ok options ∧ options.States settings) ∧
    ∀ before setting behind, settings = before ++ setting :: behind →
      ((before ++ behind).map Setting.name).Nodup →
      setting.name ∈ (before ++ behind).map Setting.name →
      ofArguments arguments = .error (.repeated setting.name) := by
  rw [ofArguments_of_allSpelled hspelled hplain]
  refine ⟨fun hnodup => ?_, ?_⟩
  · obtain ⟨last, hlast, hmade⟩ := Reading.Made.initial.foldlM_make hplain hnodup
    exact ⟨last.options, by rw [hlast]; rfl, hmade.states⟩
  · rintro before setting behind rfl hnodup hname
    have hbefore : ∀ other ∈ before, other.IsPlain := fun other hmem =>
      hplain other (List.mem_append_left _ hmem)
    rw [List.map_append] at hnodup hname
    rcases List.mem_append.mp hname with hname | hname
    · -- the option was set before, so this setting is the repetition
      rw [Reading.Made.initial.foldlM_make_repeated hbefore (List.nodup_append.mp hnodup).1 hname]
      rfl
    · -- the option is set behind, so the repetition is there
      obtain ⟨other, hmem, heq⟩ := List.mem_map.mp hname
      obtain ⟨between, rest, rfl⟩ := List.append_of_mem hmem
      have hperm : (before.map Setting.name ++ (between.map Setting.name ++ [other.name])).Perm
          ((before ++ setting :: between).map Setting.name) := by
        rw [List.map_append, List.map_cons, heq]
        exact (List.perm_append_singleton _ _).append_left _
      have hsublist : (between.map Setting.name ++ [other.name]).Sublist
          ((between ++ other :: rest).map Setting.name) := by
        rw [List.map_append, List.map_cons]
        exact (List.Sublist.refl _).append (List.singleton_sublist.mpr List.mem_cons_self)
      have hfirst : ((before ++ setting :: between).map Setting.name).Nodup :=
        hperm.nodup (hnodup.sublist ((List.Sublist.refl _).append hsublist))
      have hline : before ++ setting :: (between ++ other :: rest) =
          (before ++ setting :: between) ++ other :: rest := by simp
      rw [hline] at hplain ⊢
      rw [Reading.Made.initial.foldlM_make_repeated
        (fun s hs => hplain s (List.mem_append_left _ hs)) hfirst (by simp [heq]), heq]
      rfl

/-- A value may look like the name of an option, hold the sign that divides and name a format
in any case; an option that comes again at the end is refused, even with another spelling. -/
theorem Options.ofArguments_of_spelled_mixed :
    let settings : List Setting := [
      .valued .title "output", .quiet, .valued .format "MarkDown", .valued .output "a=-b",
      .valued .input "output"]
    let arguments := ["--title", "output", "-q", "-fMarkDown", "-o=a=-b", "--input=output"]
    (Setting.AllSpelled settings arguments ∧ Setting.AllSpelled (settings ++ [.quiet])
        (arguments ++ ["--quiet"])) ∧
      (∀ setting ∈ settings ++ [.quiet], setting.IsPlain) ∧
      (∃ options, ofArguments arguments = .ok options ∧ options.States settings) ∧
      ofArguments (arguments ++ ["--quiet"]) = .error (.repeated (.switch .quiet)) := by
  intro settings arguments
  have hend : Setting.AllSpelled [.quiet] ["--quiet"] := .cons .quiet .nil
  have htitle : Setting.Spelled (.valued .title "output") ["--title", "output"] :=
    .long .title "output"
  have hformat : Setting.Spelled (.valued .format "MarkDown") ["-fMarkDown"] :=
    .letterAttached "MarkDown" (rfl : (Name.valued .format).letter? = some 'f')
  have houtput : Setting.Spelled (.valued .output "a=-b") ["-o=a=-b"] :=
    .letterEquals "a=-b" (rfl : (Name.valued .output).letter? = some 'o')
  have hinput : Setting.Spelled (.valued .input "output") ["--input=output"] :=
    .longAttached .input "output"
  have hspelled : ∀ {others last}, Setting.AllSpelled others last →
      Setting.AllSpelled (settings ++ others) (arguments ++ last) := by
    intro others last hlast
    have hline := Setting.AllSpelled.cons htitle (.cons .quietLetter
      (.cons hformat (.cons houtput (.cons hinput hlast))))
    exact hline
  have hplain : ∀ setting ∈ settings ++ [.quiet], setting.IsPlain := by
    have hword : "output".toList = 'o' :: "utput".toList := rfl
    simp only [settings, List.cons_append, List.nil_append, List.forall_mem_cons]
    exact ⟨⟨⟨_, _, hword, by decide, by decide⟩, nofun⟩, trivial,
      ⟨⟨'M', "arkDown".toList, rfl, by decide, by decide⟩, fun _ => ⟨.markdown, by decide⟩⟩,
      ⟨⟨'a', "=-b".toList, rfl, by decide, by decide⟩, nofun⟩,
      ⟨⟨_, _, hword, by decide, by decide⟩, nofun⟩, trivial, List.forall_mem_nil _⟩
  refine ⟨⟨?_, hspelled hend⟩, hplain, ?_, ?_⟩
  · exact hspelled .nil
  · exact (ofArguments_of_spelled (hspelled .nil)
      fun s hs => hplain s (List.mem_append_left _ hs)).1 (by decide)
  · exact (ofArguments_of_spelled (hspelled hend) hplain).2 settings .quiet [] rfl
      (by decide) (by decide)

end TimingReport.Command
