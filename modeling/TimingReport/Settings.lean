import TimingReport.Category
import TimingReport.Format

/-!
# Settings

Settings say which report to make when the command line does not. Each of them may be
absent. Rules, if there are any, replace the standard table, and each of them must have
patterns, none of which is empty.
-/

namespace TimingReport

/-- Why rules cannot be used. -/
inductive RuleFault where
  | noPatterns (index : Nat) (category : Category)
  | emptyPattern (index : Nat) (category : Category)
deriving DecidableEq

/-- The wording of a fault of the rules. -/
def RuleFault.message : RuleFault → String
  | noPatterns index category =>
      "rule #" ++ toString index ++ " (" ++ category.label ++ ") has no patterns"
  | emptyPattern index category =>
      "rule #" ++ toString index ++ " (" ++ category.label ++ ") has an empty pattern"

/-- The settings of a report. -/
structure Settings where
  input : Option String := none
  output : Option String := none
  format : Option Format := none
  title : Option String := none
  rules : List Rule := []
deriving DecidableEq

namespace Settings

/-- What is wrong with a rule at an index. -/
def ruleFault? (index : Nat) (rule : Rule) : Option RuleFault :=
  if rule.patterns.isEmpty then some (.noPatterns index rule.category)
  else if rule.patterns.any String.isEmpty then some (.emptyPattern index rule.category)
  else none

/-- The first fault of rules of which the first has the given index. -/
def firstFault? (index : Nat) : List Rule → Option RuleFault
  | [] => none
  | rule :: rest => (ruleFault? index rule).or (firstFault? (index + 1) rest)

/-- The rules must be usable. -/
def check (s : Settings) : Except RuleFault Unit :=
  match firstFault? 0 s.rules with
  | some fault => .error fault
  | none => .ok ()

/-- The table that the settings ask for. -/
def table (s : Settings) : Except RuleFault RuleTable :=
  s.check.map fun _ => if s.rules.isEmpty then .standard else ⟨s.rules⟩

/-- A change of one setting. -/
inductive Change where
  | input (path : String)
  | output (path : String)
  | format (format : Format)
  | title (title : String)
  | rule (rule : Rule)

/-- The settings after a change; a rule comes behind those that are there. -/
def apply (s : Settings) : Change → Settings
  | .input path => { s with input := some path }
  | .output path => { s with output := some path }
  | .format format => { s with format := some format }
  | .title title => { s with title := some title }
  | .rule rule => { s with rules := s.rules ++ [rule] }

end Settings

end TimingReport
