import TimingReport.Decimal.Shortest
import TimingReport.Text.Quoted

/-!
# Misplaced values

A document may hold a value of another kind than the one wanted at its place. Faults
describe the value that was found and name the kind that was wanted.
-/

namespace TimingReport

/-- What a document holds where something else is wanted. -/
inductive Found where
  | nothing
  | boolean (value : Bool)
  | integer (value : Int)
  /-- An integer of more than 64 bits. -/
  | wide (value : Int)
  | real (value : Binary64)
  | text (value : String)
  | sequence
  | mapping
deriving DecidableEq

namespace Found

/-- How a kind of document words its values. -/
structure Wording where
  nothing : String
  real : Binary64 → String

/-- The description of what was found. -/
def describe (wording : Wording) : Found → String
  | nothing => wording.nothing
  | boolean value => "boolean `" ++ toString value ++ "`"
  | integer value => "integer `" ++ toString value ++ "`"
  | wide value =>
      "integer `" ++ toString value ++ "` as " ++ (if value < 0 then "i128" else "u128")
  | real value => "floating point `" ++ wording.real value ++ "`"
  | text value => "string " ++ Text.quoted value
  | sequence => "sequence"
  | mapping => "map"

/-- The complaint that something else is wanted. -/
def complaint (wording : Wording) (found : Found) (wanted : String) : String :=
  "invalid type: " ++ found.describe wording ++ ", expected " ++ wanted

end Found

/-! ## Fields -/

/-- The complaint that a field is absent. -/
def missingField (name : String) : String := "missing field `" ++ name ++ "`"

/-- The complaint that a field comes twice. -/
def duplicateField (name : String) : String := "duplicate field `" ++ name ++ "`"

end TimingReport
