import Mathlib.Data.String.Basic
import TimingReport.Proofs.Store.Destinations

/-!
# The directory beside a destination

The path of the directory that a destination lies in is made of the parts of its path that
name something. It leads to the same directory as the walk along all of them.
-/

namespace TimingReport.Store

/-! ## Parts of a path -/

/-- A part does not contain what divides it from the others. -/
theorem not_mem_of_mem_splitOn {divider : Char} {text part : List Char}
    (hpart : part ∈ text.splitOn divider) : divider ∉ part := by
  induction text generalizing part with
  | nil =>
      rw [List.splitOn_nil, List.mem_singleton] at hpart
      simp [hpart]
  | cons c rest ih =>
      rw [List.splitOn_cons_eq_if_modifyHead] at hpart
      split at hpart
      · rcases List.mem_cons.mp hpart with rfl | hrest
        · exact List.not_mem_nil
        · exact ih hrest
      next hc =>
        obtain ⟨first, more, hsplit⟩ :=
          List.exists_cons_of_ne_nil (List.splitOn_ne_nil divider rest)
        rw [hsplit, List.modifyHead_cons] at hpart
        rcases List.mem_cons.mp hpart with rfl | hmore
        · have hfirst : divider ∉ first := ih (hsplit ▸ List.mem_cons_self)
          have hne : divider ≠ c := fun heq => hc (by simp [heq])
          simp [hne, hfirst]
        · exact ih (hsplit ▸ List.mem_cons_of_mem first hmore)

/-- Leaving out parts leaves out characters. -/
theorem intercalate_sublist {divider : List Char} {first second : List (List Char)}
    (hsublist : first.Sublist second) :
    (divider.intercalate first).Sublist (divider.intercalate second) := by
  induction hsublist with
  | slnil => exact List.Sublist.refl _
  | @cons first second part hsublist ih =>
      by_cases hsecond : second = []
      · subst hsecond
        simp [List.sublist_nil.mp hsublist]
      · rw [List.intercalate_cons_of_ne_nil hsecond]
        exact ih.trans (List.sublist_append_right ..)
  | @cons_cons first second part hsublist ih =>
      by_cases hfirst : first = []
      · subst hfirst
        by_cases hsecond : second = []
        · simp [hsecond]
        · rw [List.intercalate_cons_of_ne_nil hsecond]
          simp [List.append_assoc]
      · have hsecond : second ≠ [] := fun heq => hfirst (List.sublist_nil.mp (heq ▸ hsublist))
        rw [List.intercalate_cons_of_ne_nil hfirst, List.intercalate_cons_of_ne_nil hsecond]
        exact (List.Sublist.refl _).append ih

/-- A path is its parts with slashes between them. -/
theorem toList_eq_intercalate (path : String) :
    path.toList = ['/'].intercalate ((rawParts path).map String.toList) := by
  have hid : String.toList ∘ String.ofList = id := funext fun text => String.toList_ofList
  rw [rawParts, List.map_map, hid, List.map_id, List.intercalate_splitOn]

theorem notMem_rawParts {path part : String} (hpart : part ∈ rawParts path) :
    '/' ∉ part.toList := by
  obtain ⟨text, htext, rfl⟩ := List.mem_map.mp hpart
  rw [String.toList_ofList]
  exact not_mem_of_mem_splitOn htext

/-- Parts without slashes are found again in their path. -/
theorem rawParts_intercalate {parts : List String} (hne : parts ≠ [])
    (hparts : ∀ part ∈ parts, '/' ∉ part.toList) : rawParts ("/".intercalate parts) = parts := by
  have hid : String.ofList ∘ String.toList = id := funext fun text => String.ofList_toList
  have hslash : "/".toList = ['/'] := rfl
  have htexts : ∀ text ∈ parts.map String.toList, '/' ∉ text := by
    simpa using hparts
  rw [rawParts, String.toList_intercalate, hslash, List.splitOn_intercalate '/' htexts (by simpa),
    List.map_map, hid, List.map_id]

theorem rawParts_slash (text : String) : rawParts ("/" ++ text) = "" :: rawParts text := by
  have hslash : "/".toList = ['/'] := rfl
  rw [rawParts, String.toList_append, hslash, List.singleton_append,
    List.splitOn_cons_eq_if_modifyHead]
  simp [rawParts]

/-- Leaving characters out keeps a path within the limits of the system. -/
theorem checkPath_of_sublist {path part : String} (hcheck : checkPath path = .ok ())
    (hsublist : part.toList.Sublist path.toList) (hne : part ≠ "") :
    checkPath part = .ok () := by
  obtain ⟨hnul, _, hlength⟩ := checkPath_eq_ok_iff.mp hcheck
  refine checkPath_eq_ok_iff.mpr ⟨fun hmem => hnul (hsublist.subset hmem), hne, ?_⟩
  rw [← String.utf8Len_toList] at hlength ⊢
  exact Nat.lt_of_le_of_lt (String.utf8Len_le_of_sublist hsublist) hlength

/-! ## The parent -/

theorem parts_eq (path : String) :
    Path.parts path = (rawParts path).filter fun part => part ≠ "" ∧ part ≠ "." := rfl

/-- A slash in front changes no part that counts. -/
theorem parts_slash (text : String) : Path.parts ("/" ++ text) = Path.parts text := by
  simp [parts_eq, rawParts_slash]

/-- The path of a directory has no characters but those of the path in it. -/
theorem toList_body_sublist (path : String) :
    ("/".intercalate (Path.parts path).dropLast).toList.Sublist path.toList := by
  rw [toList_eq_intercalate path, String.toList_intercalate]
  have hsublist : (Path.parts path).dropLast.Sublist (rawParts path) :=
    (List.dropLast_sublist _).trans List.filter_sublist
  exact intercalate_sublist (hsublist.map _)

theorem notMem_dropLast_parts {path part : String} (hpart : part ∈ (Path.parts path).dropLast) :
    part ≠ "" ∧ '/' ∉ part.toList := by
  have hmem := (List.dropLast_sublist _).subset hpart
  simp only [parts_eq, List.mem_filter, decide_eq_true_eq] at hmem
  exact ⟨hmem.2.1, notMem_rawParts hmem.1⟩

/-- The path of a directory has all parts that count but the last. -/
theorem rawParts_body {path : String} (hne : (Path.parts path).dropLast ≠ []) :
    rawParts ("/".intercalate (Path.parts path).dropLast) = (Path.parts path).dropLast :=
  rawParts_intercalate hne fun _ hpart => (notMem_dropLast_parts hpart).2

/-- The named parts of a path start with no slash. -/
theorem head?_body {path : String} (hne : (Path.parts path).dropLast ≠ []) :
    ∃ c, c ≠ '/' ∧ ("/".intercalate (Path.parts path).dropLast).toList.head? = some c := by
  obtain ⟨first, more, hparts⟩ := List.exists_cons_of_ne_nil hne
  obtain ⟨hfirst, hslash⟩ := notMem_dropLast_parts (hparts ▸ List.mem_cons_self)
  obtain ⟨c, rest, hc⟩ := List.exists_cons_of_ne_nil (String.toList_eq_nil_iff.not.mpr hfirst)
  refine ⟨c, fun heq => hslash (by simp [hc, heq]), ?_⟩
  rw [hparts, String.toList_intercalate]
  cases more <;> simp [hc, List.intercalate_cons_cons]

/-- An absolute path starts at the root and any other in the working directory. -/
theorem origin_eq (store : Store) (path : String) :
    store.origin path = if Path.isAbsolute path then [] else store.workingDirectory := by
  simp [origin, Path.isAbsolute]

namespace Names

variable {store : Store} {path name : String} {before : List String} {directory : Location}

/-- The named parts lead from the start of the path to the directory. -/
theorem walk_parts (hnames : store.Names path before directory name) :
    store.walk (Path.parts path).dropLast (store.origin path) = .ok directory := by
  have hparts : (Path.parts path).dropLast = before.filter fun part => part ≠ "" ∧ part ≠ "." := by
    simp [parts_eq, hnames.parts, hnames.notBlank, hnames.notDot]
  rw [hparts]
  exact walk_filter hnames.walk

theorem parts_ne_nil (hnames : store.Names path before directory name) :
    Path.parts path ≠ [] := by
  simp [parts_eq, hnames.parts, hnames.notBlank, hnames.notDot]

/-- A path that leads to a directory starts in one. -/
theorem isDirectory_origin (hnames : store.Names path before directory name) :
    store.isDirectory (store.origin path) := isDirectory_of_walk hnames.walk hnames.isDirectory

/-- The directory of a relative path is found by its own path. -/
theorem locate_relative (hnames : store.Names path before directory name)
    (hrelative : Path.isAbsolute path = false) :
    store.locate (parentPath path) = .ok directory := by
  have hwalk := hnames.walk_parts
  have hstart := hnames.isDirectory_origin
  rw [origin_eq, hrelative, if_neg Bool.false_ne_true] at hwalk hstart
  by_cases hempty : (Path.parts path).dropLast = []
  · -- no directory is named, so the parent is the working directory
    have hparent : parentPath path = "." := by simp [parentPath, hrelative, hempty]
    have horigin : store.origin "." = store.workingDirectory := if_neg (by decide)
    have hdot : rawParts "." = ["."] := by decide
    rw [hempty] at hwalk
    rw [hparent, locate_eq_ok_iff, horigin, hdot]
    exact ⟨by decide, by simpa [Store.walk, hstart] using hwalk⟩
  · have hparent : parentPath path = "/".intercalate (Path.parts path).dropLast := by
      simp [parentPath, hrelative, hempty, hnames.parts_ne_nil]
    obtain ⟨c, hslash, hhead⟩ := head?_body hempty
    have hbody : Path.isAbsolute ("/".intercalate (Path.parts path).dropLast) = false := by
      rw [Path.isAbsolute, hhead]
      simp [hslash]
    have hne : "/".intercalate (Path.parts path).dropLast ≠ "" := fun heq => by simp [heq] at hhead
    rw [hparent, locate_eq_ok_iff, rawParts_body hempty, origin_eq, hbody]
    exact ⟨checkPath_of_sublist hnames.check (toList_body_sublist path) hne, hwalk⟩

/-- The directory of an absolute path is found by its own path. -/
theorem locate_absolute (hnames : store.Names path before directory name)
    (habsolute : Path.isAbsolute path) : store.locate (parentPath path) = .ok directory := by
  have hwalk := hnames.walk_parts
  have hstart := hnames.isDirectory_origin
  rw [origin_eq, if_pos habsolute] at hwalk hstart
  obtain ⟨rest, rfl⟩ : ∃ rest, path = "/" ++ rest := by
    obtain ⟨rest, hrest⟩ := List.head?_eq_some_iff.mp (eq_of_beq habsolute)
    exact ⟨String.ofList rest, String.toList_inj.mp (by simp [hrest])⟩
  rw [parts_slash] at hwalk
  have hparent : parentPath ("/" ++ rest) = "/" ++ "/".intercalate (Path.parts rest).dropLast := by
    have hsome := hnames.parts_ne_nil
    rw [parts_slash] at hsome
    simp [parentPath, habsolute, parts_slash, hsome]
  have hcheck : checkPath (parentPath ("/" ++ rest)) = .ok () := by
    refine checkPath_of_sublist hnames.check ?_ (by simp [hparent])
    rw [hparent, String.toList_append, String.toList_append]
    exact (List.Sublist.refl _).append (toList_body_sublist rest)
  refine locate_eq_ok_iff.mpr ⟨hcheck, ?_⟩
  have horigin : store.origin (parentPath ("/" ++ rest)) = [] := by
    rw [hparent, origin, String.toList_append]
    rfl
  rw [horigin, hparent, rawParts_slash]
  by_cases hempty : (Path.parts rest).dropLast = []
  · have hblank : rawParts "" = [""] := by decide
    rw [hempty] at hwalk ⊢
    rw [String.intercalate_nil, hblank]
    simpa only [Store.walk, hstart, true_or, if_true, Bool.not_true, Bool.false_eq_true, if_false]
      using hwalk
  · rw [rawParts_body hempty]
    simpa only [Store.walk, hstart, true_or, if_true, Bool.not_true, Bool.false_eq_true, if_false]
      using hwalk

/-- A destination lies in the directory of its parent path. -/
theorem locate_parentPath (hnames : store.Names path before directory name) :
    store.locate (parentPath path) = .ok directory := by
  cases habsolute : Path.isAbsolute path with
  | true => exact hnames.locate_absolute habsolute
  | false => exact hnames.locate_relative habsolute

end Names

end TimingReport.Store
