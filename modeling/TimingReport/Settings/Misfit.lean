import TimingReport.Category
import TimingReport.Found
import TimingReport.Format

/-!
# Documents that are no settings

Why a document cannot be taken for settings, whatever language it is written in.
-/

namespace TimingReport.Settings

/-- Why a document is no settings. -/
inductive Misfit where
  /-- The text breaks the rules of its language, or a value cannot be read as what is
  wanted at its place. -/
  | malformed
  | wrongType (found : Found) (wanted : String)
  | unknownField (name : String)
  | unknownWord (word : String) (choices : List String)
  | missingField (name : String)
  | duplicateField (name : String)

/-- The words of settings. -/
def wording : Found.Wording where
  nothing := "unit value"
  real := Decimal.plainPointed

/-- Words in the shape of a choice. -/
def choiceText (choices : List String) : String :=
  "expected one of " ++ ", ".intercalate (choices.map fun word => "`" ++ word ++ "`")

/-- The names of the settings. -/
def fieldNames : List String := ["input", "output", "format", "title", "rules"]

/-- The wording of a misfit. -/
def Misfit.message : Misfit → String
  | malformed => "the document is malformed"
  | wrongType found wanted => found.complaint wording wanted
  | unknownField name => "unknown field `" ++ name ++ "`, " ++ choiceText fieldNames
  | unknownWord word choices => "unknown variant `" ++ word ++ "`, " ++ choiceText choices
  | missingField name => TimingReport.missingField name
  | duplicateField name => TimingReport.duplicateField name

/-- A choice between named values: the words it takes and what they mean. -/
structure Choice (α : Type) where
  words : List String
  meaning : String → Option α

/-- The value of a word. -/
def Choice.ofWord {α : Type} (choice : Choice α) (word : String) : Except Misfit α :=
  match choice.meaning word with
  | some a => .ok a
  | none => .error (.unknownWord word choice.words)

/-- The choice between the formats. -/
def formatChoice : Choice Format where
  words := ["html", "markdown", "md", "csv"]
  meaning := Format.ofWord?

/-- The choice between the categories. -/
def categoryChoice : Choice Category where
  words := Category.all.map Category.key
  meaning := Category.ofKey?

/-! ## What values are wanted -/

/-- What a document is wanted to be. -/
def wantedSettings : String := "struct ReportConfig"

/-- What a rule is wanted to be. -/
def wantedRule : String := "struct RuleConfig"

/-- What rules and patterns are wanted to be. -/
def wantedList : String := "a sequence"

/-- What a title and a pattern are wanted to be. -/
def wantedText : String := "a string"

/-- What the name of a file is wanted to be. -/
def wantedPath : String := "path string"

/-- The name of a rule's category. -/
def categoryField : String := "category"

/-- The name of a rule's patterns. -/
def patternsField : String := "contains"

/-! ## Rules -/

/-- A rule of which the category may be missing. -/
structure RuleDraft where
  category : Option Category := none
  patterns : List String := []

/-- The rule, which must have a category. -/
def RuleDraft.finish (draft : RuleDraft) : Except Misfit Rule :=
  match draft.category with
  | some category => .ok ⟨category, draft.patterns⟩
  | none => .error (.missingField categoryField)

end TimingReport.Settings
