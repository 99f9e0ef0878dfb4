import TimingReport.Binary64

/-!
# The values of a TOML document

A document is a table, which maps keys to values in the order in which they were set.
-/

namespace TimingReport.Toml

/-- How a table came to be, which decides what may still be added to it. -/
inductive Origin where
  /-- The document itself, or the table of a header. -/
  | header
  /-- Named only on the way to the table of another header. -/
  | implied
  /-- Named only on the way to a dotted key. -/
  | dotted
  /-- Written as a value, in braces. -/
  | inline
deriving DecidableEq

/-- A value of a document. -/
inductive Node where
  | text (value : String)
  | integer (value : Int)
  | real (value : Binary64)
  | boolean (value : Bool)
  /-- A date or a time, of which only the kind is kept. -/
  | moment
  | array (items : List Node)
  | table (origin : Origin) (entries : List (String × Node))
  /-- The tables of headers in double brackets. -/
  | tables (elements : List (List (String × Node)))

/-- What a table holds. -/
abbrev Entries := List (String × Node)

namespace Entries

/-- The entries with a new value for a key that they hold. -/
def replace (key : String) (node : Node) (entries : Entries) : Entries :=
  entries.map fun entry => if entry.1 = key then (key, node) else entry

/-- The entries without a key. -/
def remove (key : String) (entries : Entries) : Entries :=
  entries.filter fun entry => entry.1 ≠ key

/-- The entries with one more at the end. -/
def append (key : String) (node : Node) (entries : Entries) : Entries := entries ++ [(key, node)]

end Entries

end TimingReport.Toml
