import TimingReport.FileFault
import TimingReport.Text.Utf8

/-!
# Stores of files

A store is a tree of files and directories with a working directory. An entry is found by
walking the parts of its path, where two dots go up and a part leads on only from a
directory. The tree lies on a device, on which an operation may fail whatever the path is.
-/

namespace TimingReport

/-- A file or a directory. -/
inductive Entry where
  | file (bytes : List UInt8)
  | directory
deriving DecidableEq

/-- The bits of an entry's permissions. -/
abbrev Mode := UInt32

/-- An entry with its permissions. -/
structure Inode where
  entry : Entry
  mode : Mode
deriving DecidableEq

/-- What is done to the file of a path, or to a new one that is to replace it. -/
inductive Operation where
  | read
  /-- The new file is created. -/
  | create
  /-- The permissions of the old file are looked up. -/
  | status
  /-- The new file gets the permissions of the old one. -/
  | setMode
  | write
  /-- What was written is brought to the disk. -/
  | sync
  /-- The new file takes the place of the old one. -/
  | move
deriving DecidableEq

/-- What fails for other reasons than where a path leads: a right is missing, or the disk is
full or broken. -/
structure Device where
  /-- The failure of an operation for a path. -/
  fault? : Operation → String → Option FileFault := fun _ _ => none
  /-- How many bytes get into a file before writing it fails. -/
  capacity : Nat := 0

/-- Where an entry lies: the names of the directories around it and its own, outermost first.
The root has the empty location. -/
abbrev Location := List String

/-- A tree of entries. The root is always there. -/
structure Store where
  entries : List (Location × Inode)
  workingDirectory : Location
  /-- The permissions that no new file gets. -/
  umask : Mode := 0o022
  device : Device := {}

namespace Store

/-! ## Entries -/

/-- The root of the tree. -/
def root : Inode := { entry := .directory, mode := 0o755 }

/-- The entry at a location with its permissions. -/
def node? (store : Store) (location : Location) : Option Inode :=
  if location = [] then some root else store.entries.lookup location

/-- The entry at a location. -/
def get? (store : Store) (location : Location) : Option Entry :=
  (store.node? location).map Inode.entry

/-- The entry at a location is a directory. -/
def isDirectory (store : Store) (location : Location) : Bool :=
  store.get? location == some .directory

/-- The store without an entry at a location. -/
def erase (store : Store) (location : Location) : Store :=
  { store with entries := store.entries.filter fun (l, _) => l ≠ location }

/-- The store with an entry at a location in place of what was there. -/
def put (store : Store) (location : Location) (node : Inode) : Store :=
  { store.erase location with entries := (store.erase location).entries ++ [(location, node)] }

/-- The store with a change of the entry at a location. -/
def update (store : Store) (location : Location) (change : Inode → Inode) : Store :=
  match store.node? location with
  | some node => store.put location (change node)
  | none => store

/-! ## Paths -/

/-- A name has at most so many bytes. -/
def maxNameBytes : Nat := 255

/-- A path has less than so many bytes. -/
def maxPathBytes : Nat := 4096

/-- All parts of a path, including empty ones. -/
def rawParts (path : String) : List String := (path.toList.splitOn '/').map String.ofList

/-- Where the walk along a path starts. -/
def origin (store : Store) (path : String) : Location :=
  if path.toList.head? = some '/' then [] else store.workingDirectory

/-- The location that parts lead to. Every part needs a directory to lead on from, and a
name needs an entry. -/
def walk (store : Store) : List String → Location → Except FileFault Location
  | [], location => .ok location
  | part :: rest, location =>
      if !store.isDirectory location then .error .noDirectory
      else if part = "" ∨ part = "." then walk store rest location
      else if part = ".." then walk store rest location.dropLast
      else if maxNameBytes < part.utf8ByteSize then .error .nameTooLong
      else if (store.get? (location ++ [part])).isSome then walk store rest (location ++ [part])
      else .error .missing

/-- The path can be given to the system at all. -/
def checkPath (path : String) : Except FileFault Unit :=
  if path.toList.contains '\x00' then .error .nulInPath
  else if path.isEmpty then .error .missing
  else if maxPathBytes ≤ path.utf8ByteSize then .error .nameTooLong
  else .ok ()

/-- The location of the entry that a path names. -/
def locate (store : Store) (path : String) : Except FileFault Location := do
  checkPath path
  store.walk (rawParts path) (store.origin path)

/-! ## Operations -/

/-- An operation for a path, if the device does not fail. -/
def attempt (store : Store) (operation : Operation) (path : String) : Except FileFault Unit :=
  match store.device.fault? operation path with
  | some fault => .error fault
  | none => .ok ()

/-- The bytes of the file that a path names. -/
def read (store : Store) (path : String) : Except FileFault (List UInt8) := do
  match store.get? (← store.locate path) with
  | some (.file bytes) =>
      store.attempt .read path
      return bytes
  | some .directory => .error .isDirectory
  | none => .error .missing

/-- The permissions of the entry that a path names, if they can be told. -/
def status? (store : Store) (path : String) : Option Mode :=
  match store.attempt .status path, store.locate path with
  | .ok (), .ok location => (store.node? location).map Inode.mode
  | _, _ => none

/-- The permissions of a new file. -/
def newMode (store : Store) : Mode := 0o644 &&& ~~~store.umask

/-! ## Directories and listings -/

/-- The store with a directory at a location if nothing is there. -/
def ensureDirectory (store : Store) (location : Location) : Store :=
  if (store.get? location).isSome then store
  else store.put location { entry := .directory, mode := 0o777 &&& ~~~store.umask }

/-- The store with directories along the names below a location. -/
def ensureDirectories (store : Store) (location : Location) : List String → Store
  | [] => store
  | name :: rest =>
      (store.ensureDirectory (location ++ [name])).ensureDirectories (location ++ [name]) rest

/-- A store that holds nothing but the way to its working directory. -/
def empty (workingDirectory : Location) : Store :=
  ({ entries := [], workingDirectory } : Store).ensureDirectories [] workingDirectory

/-- The store with a file below the working directory, and the directories around it. -/
def withFile (store : Store) (path : String) (bytes : List UInt8) : Store :=
  let names := (rawParts path).filter fun part => part ≠ "" ∧ part ≠ "."
  let base := store.workingDirectory
  (store.ensureDirectories base names.dropLast).put (base ++ names)
    { entry := .file bytes, mode := store.newMode }

/-- The store with a directory below the working directory, and those around it. -/
def withDirectory (store : Store) (path : String) : Store :=
  store.ensureDirectories store.workingDirectory
    ((rawParts path).filter fun part => part ≠ "" ∧ part ≠ ".")

/-- The entries below the working directory with their paths from there, in alphabetical
order. The path of a directory ends with a slash. -/
def listing (store : Store) : List (String × Entry) :=
  let below := store.entries.filterMap fun (location, node) =>
    if store.workingDirectory.isPrefixOf location then
      let names := location.drop store.workingDirectory.length
      let path := "/".intercalate names
      if names.isEmpty then none
      else some (if node.entry = .directory then path ++ "/" else path, node.entry)
    else none
  below.mergeSort fun a b => !decide (b.1 < a.1)

end Store

end TimingReport
