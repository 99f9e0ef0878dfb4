import TimingReport.Record
import TimingReport.Text.Occurrence

/-!
# Categories

Each record belongs to one of five categories. A table of rules decides by the record's
name: the first rule with a pattern that occurs in the name gives the category, and a
name that no rule matches belongs to `Other`.
-/

namespace TimingReport

/-- The categories, in report order. -/
inductive Category where
  | core
  | network
  | config
  | memory
  | other
deriving DecidableEq

namespace Category

/-- All categories in report order. -/
def all : List Category := [core, network, config, memory, other]

/-- The place of the category in report order. -/
def index : Category → Fin 5
  | core => 0
  | network => 1
  | config => 2
  | memory => 3
  | other => 4

/-- The heading of the category. -/
def label : Category → String
  | core => "Core"
  | network => "Network"
  | config => "Config"
  | memory => "Memory"
  | other => "Other"

/-- The word for the category in settings. -/
def key : Category → String
  | core => "core"
  | network => "network"
  | config => "config"
  | memory => "memory"
  | other => "other"

/-- The category of a settings word. -/
def ofKey? (word : String) : Option Category := all.find? (·.key == word)

end Category

/-- A rule that puts names with one of the patterns in them into a category. -/
structure Rule where
  category : Category
  patterns : List String
deriving DecidableEq

/-- One of the rule's patterns occurs in the name. -/
def Rule.matchesName (rule : Rule) (name : String) : Bool :=
  rule.patterns.any fun pattern => Text.occurs pattern name

/-- Rules in the order in which they are tried. -/
structure RuleTable where
  rules : List Rule
deriving DecidableEq

namespace RuleTable

/-- The rules that hold when nothing else is set. -/
def standard : RuleTable where
  rules := [
    ⟨.core, ["PlayerRegistry"]⟩,
    ⟨.network, ["Protobuf", "Batch", "Serialization"]⟩,
    ⟨.config, ["Config"]⟩,
    ⟨.memory, ["Memory"]⟩]

/-- The category of the first rule that matches the name. -/
def categoryOf (table : RuleTable) (name : String) : Category :=
  match table.rules.find? (·.matchesName name) with
  | some rule => rule.category
  | none => .other

end RuleTable

/-- Records divided by category: one bucket for each category, in report order. -/
structure Classification where
  buckets : Vector (List Record) 5

namespace Classification

/-- A division of no records. -/
def empty : Classification where
  buckets := Vector.replicate 5 []

/-- The records of a category. -/
def members (c : Classification) (category : Category) : List Record := c.buckets[category.index]

/-- The division with one more record, at the end of the bucket of its category. -/
def push (c : Classification) (category : Category) (record : Record) : Classification where
  buckets := c.buckets.set category.index (c.members category ++ [record])

/-- The division that a table makes of records that are taken one after the other. -/
def ofRecords (table : RuleTable) (records : List Record) : Classification :=
  records.foldl (fun c record => c.push (table.categoryOf record.name) record) empty

/-- The number of records in all buckets. -/
def size (c : Classification) : Nat := c.buckets.foldl (fun size bucket => size + bucket.length) 0

def isEmpty (c : Classification) : Bool := c.size == 0

end Classification

end TimingReport
