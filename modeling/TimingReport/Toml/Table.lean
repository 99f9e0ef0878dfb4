import TimingReport.Toml.Node

/-!
# Tables of TOML

A table may be added to from several places, but every place of a document defines it in
one way only: a header must not name a table that dotted keys made, dotted keys must not
enter a table that has a header, and no key is set twice.
-/

namespace TimingReport.Toml

/-- The entries after a change of the table at a path. Tables that are missing on the way
are made, and of the tables in double brackets the last one is meant. Dotted keys go
through no table that has a header, and nothing goes through a value. -/
def within (isDotted : Bool) (change : Origin → Entries → Option Entries) :
    List String → Origin → Entries → Option Entries
  | [], origin, entries => change origin entries
  | key :: path, _, entries =>
      match entries.lookup key with
      | none => do
          let origin := if isDotted then Origin.dotted else .implied
          let inner ← within isDotted change path origin []
          return entries.append key (.table origin inner)
      | some (.table origin inner) =>
          if origin = .inline ∨ (isDotted ∧ origin = .header) then none
          else do
            let inner ← within isDotted change path origin inner
            return entries.replace key (.table origin inner)
      | some (.tables elements) => do
          let last ← elements.getLast?
          let inner ← within isDotted change path .header last
          return entries.replace key (.tables (elements.dropLast ++ [inner]))
      | some _ => none

/-- The entries with a new value at a path of keys. The last key must be free, and a table
is filled by dotted keys exactly if dotted keys made it. -/
def define (path : List String) (node : Node) (entries : Entries) : Option Entries :=
  let way := path.dropLast
  within true
    (fun origin inner => do
      let key ← path.getLast?
      if (origin == .dotted) == way.isEmpty || (inner.lookup key).isSome then none
      else return inner.append key node)
    way .header entries

/-- The entries with the table of a header, which `fill` completes. A table that was only
named on the way to others becomes the header's table. -/
def defineTable (path : List String) (fill : Entries → Option Entries) (entries : Entries) :
    Option Entries :=
  within false
    (fun _ inner => do
      let key ← path.getLast?
      match inner.lookup key with
      | none => return inner.append key (.table .header (← fill []))
      | some (.table .implied started) =>
          return (inner.remove key).append key (.table .header (← fill started))
      | some _ => none)
    path.dropLast .header entries

/-- The entries with one more of the tables of a header in double brackets. -/
def addTable (path : List String) (fill : Entries → Option Entries) (entries : Entries) :
    Option Entries :=
  within false
    (fun _ inner => do
      let key ← path.getLast?
      match inner.lookup key with
      | none => return inner.append key (.tables [← fill []])
      | some (.tables elements) =>
          return inner.replace key (.tables (elements ++ [← fill []]))
      | some _ => none)
    path.dropLast .header entries

end TimingReport.Toml
