/-!
# Paths

A path is a text in which slashes divide the parts. Empty parts and single dots name
nothing of their own, except that a path may consist of them alone.
-/

namespace TimingReport.Path

/-- The parts of a path that name something, in order. -/
def parts (path : String) : List String :=
  (path.toList.splitOn '/').map String.ofList |>.filter fun part => part ≠ "" ∧ part ≠ "."

/-- The path starts at the root. -/
def isAbsolute (path : String) : Bool := path.toList.head? == some '/'

/-- The last part, if it is a name and does not go up. -/
def fileName? (path : String) : Option String :=
  match (parts path).getLast? with
  | some ".." => none
  | last? => last?

/-- The name to show for a path: its file name, or all of it if it has none. -/
def displayName (path : String) : String := (fileName? path).getD path

/-- The part of the file name after its last point. A name whose only point is its first
character has no extension. -/
def extension? (path : String) : Option String := do
  let name ← fileName? path
  let reversed := name.toList.reverse
  let ending := reversed.takeWhile (· ≠ '.')
  let stem := (reversed.dropWhile (· ≠ '.')).drop 1
  if stem.isEmpty then none else some (String.ofList ending.reverse)

/-- The path from the root, for a process that works in `directory`. Parts that go up
are kept, since what they mean depends on the file system. -/
def absolute (directory path : String) : String :=
  let rest := parts path
  let start := if isAbsolute path then "" else if directory = "/" then "" else directory
  if rest.isEmpty then (if start = "" then "/" else start)
  else rest.foldl (fun text part => text ++ "/" ++ part) start

end TimingReport.Path
