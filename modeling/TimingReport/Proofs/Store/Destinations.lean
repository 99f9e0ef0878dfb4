import Mathlib.Tactic.SplitIfs
import TimingReport.Proofs.Outcome
import TimingReport.Proofs.Store.Contents

/-!
# Where a path leads

A walk that ends at a directory passes through nothing but directories. So where a document
may be put depends on the directories of a store alone, and neither files that come and go
nor the draft beside a destination change it.
-/

namespace TimingReport.Store

variable {store other : Store} {location target directory : Location} {path : String}

theorem isDirectory_iff : store.isDirectory location ↔ store.get? location = some .directory := by
  simp [isDirectory]

theorem ne_nil_of_not_isDirectory (hlocation : store.isDirectory location = false) :
    location ≠ [] := by
  rintro rfl
  cases hlocation

/-! ## Stores with the same directories -/

/-- The stores differ in their files at most. -/
structure SameDirectories (store other : Store) : Prop where
  workingDirectory : store.workingDirectory = other.workingDirectory
  isDirectory : ∀ location, store.isDirectory location = other.isDirectory location

namespace SameDirectories

theorem refl (store : Store) : SameDirectories store store := ⟨rfl, fun _ => rfl⟩

theorem symm (hsame : SameDirectories store other) : SameDirectories other store :=
  ⟨hsame.workingDirectory.symm, fun location => (hsame.isDirectory location).symm⟩

theorem trans {third : Store} (hfirst : SameDirectories store other)
    (hsecond : SameDirectories other third) : SameDirectories store third :=
  ⟨hfirst.workingDirectory.trans hsecond.workingDirectory, fun location =>
    (hfirst.isDirectory location).trans (hsecond.isDirectory location)⟩

/-- A file where there is no directory changes no directory. -/
theorem put (hlocation : store.isDirectory location = false) (bytes : List UInt8) (mode : Mode) :
    SameDirectories store (store.put location { entry := .file bytes, mode }) := by
  refine ⟨rfl, fun l => ?_⟩
  rw [Store.isDirectory, Store.isDirectory, get?_put (ne_nil_of_not_isDirectory hlocation)]
  by_cases hl : l = location
  · rw [if_pos hl, hl, ← Store.isDirectory, hlocation]
    rfl
  · rw [if_neg hl]

end SameDirectories

/-! ## Walks -/

theorem walk_append (first second : List String) (location : Location) :
    store.walk (first ++ second) location = store.walk first location >>= store.walk second := by
  fun_induction store.walk first location with
  | case1 => rfl
  | case2 _ _ _ hdirectory => simp [walk, hdirectory, bind, Except.bind]
  | case3 _ _ _ hdirectory hskip ih => simp [walk, hdirectory, hskip, ih]
  | case4 _ _ hdirectory hskip ih => simp [walk, hdirectory, ih]
  | case5 _ _ _ hdirectory hskip hup hlong => simp [walk, hdirectory, hskip, hup, hlong]; rfl
  | case6 _ _ _ hdirectory hskip hup hlong hsome ih =>
      simp [walk, hdirectory, hskip, hup, hlong, hsome, ih]
  | case7 _ _ _ hdirectory hskip hup hlong hsome =>
      simp [walk, hdirectory, hskip, hup, hlong, hsome]; rfl

theorem isDirectory_of_walk {parts : List String} (hwalk : store.walk parts location = .ok target)
    (htarget : store.isDirectory target) : store.isDirectory location := by
  cases parts with
  | nil =>
      cases hwalk
      exact htarget
  | cons part rest =>
      cases hlocation : store.isDirectory location with
      | true => rfl
      | false => simp [walk, hlocation] at hwalk

/-- A walk to a directory goes the same way in a store with the same directories. -/
theorem SameDirectories.walk (hsame : SameDirectories store other) {parts : List String}
    (hwalk : store.walk parts location = .ok target) (htarget : store.isDirectory target) :
    other.walk parts location = .ok target := by
  fun_induction store.walk parts location with
  | case1 => exact hwalk
  | case2 => cases hwalk
  | case3 _ _ _ hdirectory hskip ih =>
      rw [hsame.isDirectory] at hdirectory
      simpa [Store.walk, hdirectory, hskip] using ih hwalk
  | case4 _ _ hdirectory hskip ih =>
      rw [hsame.isDirectory] at hdirectory
      simpa [Store.walk, hdirectory] using ih hwalk
  | case5 => cases hwalk
  | case6 part rest location hdirectory hskip hup hlong hsome ih =>
      -- the walk goes on from here, so this is a directory and also there in the other store
      have hnext : other.isDirectory (location ++ [part]) := by
        rw [← hsame.isDirectory]
        exact isDirectory_of_walk hwalk htarget
      rw [hsame.isDirectory] at hdirectory
      have hsome' : (other.get? (location ++ [part])).isSome := by
        rw [isDirectory_iff.mp hnext]
        rfl
      simpa [Store.walk, hdirectory, hskip, hup, hlong, hsome'] using ih hwalk
  | case7 => cases hwalk

/-- Parts that name nothing may be left out of a walk that succeeds. -/
theorem walk_filter {parts : List String} (hwalk : store.walk parts location = .ok target) :
    store.walk (parts.filter fun part => part ≠ "" ∧ part ≠ ".") location = .ok target := by
  fun_induction store.walk parts location with
  | case1 => exact hwalk
  | case2 => cases hwalk
  | case3 _ _ _ hdirectory hskip ih =>
      rcases hskip with rfl | rfl
      · simpa using ih hwalk
      · simpa using ih hwalk
  | case4 _ _ hdirectory hskip ih => simpa [walk, hdirectory] using ih hwalk
  | case5 => cases hwalk
  | case6 _ _ _ hdirectory hskip hup hlong hsome ih =>
      obtain ⟨hempty, hdot⟩ := not_or.mp hskip
      simpa [walk, hdirectory, hempty, hdot, hup, hlong, hsome] using ih hwalk
  | case7 => cases hwalk

/-! ## Destinations -/

theorem checkPath_eq_ok_iff : checkPath path = .ok () ↔
    '\x00' ∉ path.toList ∧ path ≠ "" ∧ path.utf8ByteSize < maxPathBytes := by
  unfold checkPath
  by_cases hnul : '\x00' ∈ path.toList
  · simp [hnul]
  · by_cases hempty : path = ""
    · simp [hempty]
    · by_cases hlong : maxPathBytes ≤ path.utf8ByteSize
      · simp [hnul, hempty, hlong, Nat.not_lt.mpr hlong]
      · simp [hnul, hempty, hlong, Nat.lt_of_not_le hlong]

theorem locate_eq_ok_iff : store.locate path = .ok target ↔
    checkPath path = .ok () ∧ store.walk (rawParts path) (store.origin path) = .ok target := by
  rw [locate, Outcome.bind_eq_ok_iff]
  exact ⟨fun ⟨⟨⟩, hcheck, hwalk⟩ => ⟨hcheck, hwalk⟩, fun ⟨hcheck, hwalk⟩ => ⟨(), hcheck, hwalk⟩⟩

/-- The path ends with a name in a directory, and no directory has that name. -/
structure Names (store : Store) (path : String) (before : List String) (directory : Location)
    (name : String) : Prop where
  check : checkPath path = .ok ()
  parts : rawParts path = before ++ [name]
  walk : store.walk before (store.origin path) = .ok directory
  isDirectory : store.isDirectory directory
  notBlank : name ≠ ""
  notDot : name ≠ "."
  notUp : name ≠ ".."
  size : name.utf8ByteSize ≤ maxNameBytes
  notDirectory : store.isDirectory (directory ++ [name]) = false

/-- The last part of a path without a slash at its end is a name. -/
theorem splitLast_eq_iff {before : List String} {name : String} :
    splitLast path = (before, some name, false) ↔ rawParts path = before ++ [name] ∧ name ≠ "" := by
  constructor
  · intro hsplit
    rcases (rawParts path).eq_nil_or_concat with hnil | ⟨init, last, hparts⟩
    · simp [rawParts] at hnil
    rw [List.concat_eq_append] at hparts
    by_cases hlast : last = ""
    · have hle := (List.dropWhile_suffix (l := init.reverse) (· = "")).length_le
      rw [List.length_reverse] at hle
      simp [splitLast, hparts, hlast] at hsplit
      omega
    · obtain ⟨rfl, rfl, _⟩ : init = before ∧ last = name ∧ True := by
        simpa [splitLast, hparts, hlast] using hsplit
      exact ⟨hparts, hlast⟩
  · rintro ⟨hparts, hname⟩
    simp [splitLast, hparts, hname]

theorem destination_eq_ok_iff : store.destination path = .ok target ↔
    ∃ before directory name, store.Names path before directory name ∧
      target = directory ++ [name] := by
  constructor
  · intro hdestination
    obtain ⟨⟨⟩, hcheck, hdestination⟩ := Outcome.bind_eq_ok_iff.mp hdestination
    generalize hsplit : splitLast path = split at hdestination
    obtain ⟨before, last?, hasSlash⟩ := split
    obtain ⟨directory, hwalk, hdestination⟩ := Outcome.bind_eq_ok_iff.mp hdestination
    cases last? with
    | none => cases hdestination
    | some name =>
        simp only [Bool.not_eq_eq_eq_not, Bool.not_true] at hdestination
        split_ifs at hdestination with hdirectory hdots hlong hslash hfree
        cases hdestination
        obtain ⟨hdot, hup⟩ := not_or.mp hdots
        rw [Bool.not_eq_true] at hslash
        subst hslash
        obtain ⟨hparts, hname⟩ := splitLast_eq_iff.mp hsplit
        exact ⟨before, directory, name, {
          check := hcheck, parts := hparts, walk := hwalk, isDirectory := by simpa using hdirectory
          notBlank := hname, notDot := hdot, notUp := hup, size := Nat.not_lt.mp hlong
          notDirectory := by simpa using hfree }, rfl⟩
  · rintro ⟨before, directory, name, hnames, rfl⟩
    have hsplit := splitLast_eq_iff.mpr ⟨hnames.parts, hnames.notBlank⟩
    simp [destination, hnames.check, hsplit, hnames.walk, hnames.isDirectory, hnames.notDot,
      hnames.notUp, hnames.notDirectory, Nat.not_lt.mpr hnames.size, bind, Except.bind]

namespace Names

variable {before : List String} {name : String}

/-- Names depend on the directories of a store alone. -/
theorem of_sameDirectories (hnames : store.Names path before directory name)
    (hsame : SameDirectories store other) : other.Names path before directory name where
  check := hnames.check
  parts := hnames.parts
  walk := by
    have horigin : other.origin path = store.origin path := by
      rw [origin, origin, hsame.workingDirectory]
    rw [horigin]
    exact hsame.walk hnames.walk hnames.isDirectory
  isDirectory := by rw [← hsame.isDirectory, hnames.isDirectory]
  notBlank := hnames.notBlank
  notDot := hnames.notDot
  notUp := hnames.notUp
  size := hnames.size
  notDirectory := by rw [← hsame.isDirectory, hnames.notDirectory]

/-- A path with a name leads to the entry of that name. -/
theorem locate (hnames : store.Names path before directory name)
    (hsome : (store.get? (directory ++ [name])).isSome) :
    store.locate path = .ok (directory ++ [name]) := by
  have hlast : store.walk [name] directory = .ok (directory ++ [name]) := by
    simp [Store.walk, hnames.isDirectory, hnames.notBlank, hnames.notDot, hnames.notUp,
      Nat.not_lt.mpr hnames.size, hsome]
  rw [locate_eq_ok_iff, hnames.parts, walk_append, hnames.walk]
  exact ⟨hnames.check, hlast⟩

end Names

theorem SameDirectories.destination_eq_ok_iff (hsame : SameDirectories store other) :
    store.destination path = .ok target ↔ other.destination path = .ok target := by
  rw [Store.destination_eq_ok_iff, Store.destination_eq_ok_iff]
  constructor
  · rintro ⟨before, directory, name, hnames, htarget⟩
    exact ⟨before, directory, name, hnames.of_sameDirectories hsame, htarget⟩
  · rintro ⟨before, directory, name, hnames, htarget⟩
    exact ⟨before, directory, name, hnames.of_sameDirectories hsame.symm, htarget⟩

/-- A destination is where the path leads once an entry is there. -/
theorem locate_of_destination (hdestination : store.destination path = .ok target)
    (hsome : (store.get? target).isSome) : store.locate path = .ok target := by
  obtain ⟨before, directory, name, hnames, rfl⟩ := destination_eq_ok_iff.mp hdestination
  exact hnames.locate hsome

theorem isDirectory_destination (hdestination : store.destination path = .ok target) :
    store.isDirectory target = false := by
  obtain ⟨before, directory, name, hnames, rfl⟩ := destination_eq_ok_iff.mp hdestination
  exact hnames.notDirectory

theorem ne_nil_of_destination (hdestination : store.destination path = .ok target) :
    target ≠ [] := ne_nil_of_not_isDirectory (isDirectory_destination hdestination)

end TimingReport.Store
