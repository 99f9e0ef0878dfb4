import TimingReport.Path
import TimingReport.Store

/-!
# Writing documents

A document is written to a new file beside its destination, the draft, which then takes the
destination's place in one step. So the destination holds its old content or the whole
document. Whatever fails before that step, the draft is removed and the store is as it was.
-/

namespace TimingReport.Store

/-- An action on a store that may fail, and that may have changed the store by then. -/
abbrev Action := ExceptT FileFault (StateM Store)

/-! ## Places -/

/-- The path of the directory that a destination lies in. Of the parts of a path, those that
name nothing do not count, and a path without others has no directory of its own. -/
def parentPath (path : String) : String :=
  let parts := (Path.parts path).dropLast
  let body := "/".intercalate parts
  if (Path.parts path).isEmpty then "."
  else if Path.isAbsolute path then "/" ++ body
  else if parts.isEmpty then "." else body

/-- A name that is longer than a path and than all names of the store. -/
def freshName (store : Store) (path : String) : String :=
  let names := store.workingDirectory ++ store.entries.flatMap fun (location, _) => location
  ".tmp" ++ String.ofList (List.replicate ((names.map String.length).foldl max path.length) '0')

/-- The parts of a path before its last one, its last part, and whether a slash ends it. A
path of nothing but slashes has no last part. -/
def splitLast (path : String) : List String × Option String × Bool :=
  let parts := rawParts path
  let named := (parts.reverse.dropWhile (· = "")).reverse
  (named.dropLast, named.getLast?, named.length < parts.length)

/-- Where a file may be moved so that a path names it. A directory and what only stands for
one cannot be replaced. -/
def destination (store : Store) (path : String) : Except FileFault Location := do
  checkPath path
  let (before, last?, hasSlash) := splitLast path
  let directory ← store.walk before (store.origin path)
  match last? with
  | none => .error .busy
  | some last =>
      if !store.isDirectory directory then .error .noDirectory
      else if last = "." ∨ last = ".." then .error .busy
      else if maxNameBytes < last.utf8ByteSize then .error .nameTooLong
      else if hasSlash then .error .noDirectory
      else if store.isDirectory (directory ++ [last]) then .error .isDirectory
      else .ok (directory ++ [last])

/-! ## Steps -/

/-- An operation for a path, if the device does not fail. -/
def attempted (operation : Operation) (path : String) : Action Unit := do
  (← get).attempt operation path

/-- Creates an empty file in the directory of a path, and tells where it lies. -/
def createBeside (path : String) : Action Location := do
  let store ← get
  let directory ← store.locate (parentPath path)
  if !store.isDirectory directory then throw .noDirectory
  attempted .create path
  let draft := directory ++ [store.freshName path]
  set (store.put draft { entry := .file [], mode := store.newMode })
  return draft

/-- Gives a draft the permissions of the file that it is to replace, if they can be told. -/
def keepMode (draft : Location) (path : String) : Action Unit := do
  match (← get).status? path with
  | none => return ()
  | some mode =>
      attempted .setMode path
      modify (·.update draft fun node => { node with mode })

/-- Writes bytes into a draft. If that fails, some of them have been written. -/
def fill (draft : Location) (path : String) (bytes : List UInt8) : Action Unit := do
  let store ← get
  match store.attempt .write path with
  | .ok () => set (store.update draft fun node => { node with entry := .file bytes })
  | .error fault =>
      let started := bytes.take store.device.capacity
      set (store.update draft fun node => { node with entry := .file started })
      throw fault

/-- Moves a draft to where a path names it, in one step. -/
def move (draft : Location) (path : String) : Action Unit := do
  let store ← get
  let target ← store.destination path
  attempted .move path
  match store.node? draft with
  | some node => set ((store.erase draft).put target node)
  | none => throw .missing

/-- Completes a draft and moves it to where a path names it. -/
def complete (draft : Location) (path : String) (bytes : List UInt8) : Action Unit := do
  keepMode draft path
  fill draft path bytes
  attempted .sync path
  move draft path

/-- Writes a document to a path. A draft that is not moved is removed. -/
def replace (path : String) (bytes : List UInt8) : Action Unit := do
  let draft ← createBeside path
  try complete draft path bytes
  catch fault =>
    modify (·.erase draft)
    throw fault

/-- The store after a document was written to a path, and whether that succeeded. -/
def write (store : Store) (path : String) (bytes : List UInt8) : Except FileFault Unit × Store :=
  (replace path bytes).run.run store

end TimingReport.Store
