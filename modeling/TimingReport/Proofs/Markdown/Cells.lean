import TimingReport.Markdown

/-!
# Cells of a table line

A table line is read by splitting it at its pipes. A pipe right after a backslash divides
nothing, so an escaped name stays in its cell and can be read back from it.
-/

namespace TimingReport.Markdown

/-! ## Reading -/

/-- The pieces of a text between its pipes. A pipe right after a backslash divides nothing;
`escaped` says that a backslash stands before the text. -/
def pieces (escaped : Bool) : List Char → List (List Char)
  | [] => [[]]
  | c :: rest =>
      if c = '|' ∧ ¬escaped then [] :: pieces false rest
      else (pieces (c = '\\') rest).modifyHead (c :: ·)

/-- The line splits into the cells. Pipes stand between the cells and at both ends of the
line, and a blank on each side of a cell. -/
def SplitsInto (line : String) (cells : List String) : Prop :=
  pieces false line.toList = [] :: cells.map (fun cell => ' ' :: cell.toList ++ [' ']) ++ [[]]

/-- The text of a cell, with a pipe for every pipe after a backslash. -/
def unescape : List Char → List Char
  | '\\' :: '|' :: rest => '|' :: unescape rest
  | c :: rest => c :: unescape rest
  | [] => []

/-! ## Texts within a cell -/

/-- No pipe of the text divides it. -/
def Undivided : Bool → List Char → Prop
  | _, [] => True
  | escaped, c :: rest => (c = '|' → escaped) ∧ Undivided (c = '\\') rest

variable {escaped : Bool} {text : List Char}

theorem Undivided.of_notMem (hpipe : '|' ∉ text) : Undivided escaped text := by
  induction text generalizing escaped with
  | nil => trivial
  | cons c rest ih =>
      obtain ⟨hc, hrest⟩ := List.ne_and_not_mem_of_not_mem_cons hpipe
      exact ⟨fun heq => absurd heq.symm hc, ih hrest⟩

/-- The blank behind a text keeps a backslash at its end away from the pipe. -/
theorem Undivided.pieces_append (htext : Undivided escaped text) (rest : List Char) :
    pieces escaped (text ++ ' ' :: '|' :: rest) = (text ++ [' ']) :: pieces false rest := by
  induction text generalizing escaped with
  | nil => simp [pieces]
  | cons c more ih =>
      obtain ⟨hc, hmore⟩ := htext
      have hkept : ¬(c = '|' ∧ ¬escaped) := by
        rintro ⟨rfl, hescaped⟩
        exact hescaped (hc rfl)
      rw [List.cons_append, pieces, if_neg hkept, ih hmore]
      rfl

/-! ## Names -/

theorem toList_escapeCell (name : String) : (escapeCell name).toList =
    name.toList.flatMap fun c => if c = '|' then ['\\', '|'] else [c] :=
  String.toList_ofList

theorem undivided_escapeCell (name : String) : Undivided escaped (escapeCell name).toList := by
  rw [toList_escapeCell]
  induction name.toList generalizing escaped with
  | nil => trivial
  | cons c rest ih =>
      rw [List.flatMap_cons]
      split
      · exact ⟨fun heq => absurd heq (by decide), fun _ => rfl, ih⟩
      next hc => exact ⟨fun heq => absurd heq hc, ih⟩

/-- A backslash of the name stays one, since an escaped text does not begin with a pipe. -/
theorem unescape_escapeCell (name : String) :
    unescape (escapeCell name).toList = name.toList := by
  rw [toList_escapeCell]
  induction name.toList with
  | nil => rfl
  | cons c rest ih =>
      rw [List.flatMap_cons]
      split
      next hc =>
        subst hc
        rw [List.cons_append, List.singleton_append, unescape, ih]
      next hc =>
        rw [List.singleton_append, unescape, ih]
        rintro more - heq
        cases rest with
        | nil => cases heq
        | cons d rest =>
            rw [List.flatMap_cons] at heq
            split at heq
            · cases heq
            next hd => exact hd (List.cons.inj heq).1

/-! ## Lines -/

theorem intercalate_divider {texts : List (List Char)} (hne : texts ≠ []) :
    ' ' :: ([' ', '|', ' '].intercalate texts ++ [' ', '|']) =
      texts.flatMap fun text => ' ' :: text ++ [' ', '|'] := by
  induction texts with
  | nil => exact absurd rfl hne
  | cons text more ih =>
      by_cases hmore : more = []
      · simp [hmore]
      · rw [List.flatMap_cons, ← ih hmore, List.intercalate_cons_of_ne_nil hmore]
        simp

theorem toList_tableLine {cells : List String} (hne : cells ≠ []) : (tableLine cells).toList =
    '|' :: cells.flatMap fun cell => ' ' :: cell.toList ++ [' ', '|'] := by
  have hne : cells.map String.toList ≠ [] := by simpa using hne
  have hcells := intercalate_divider hne
  rw [List.flatMap_map] at hcells
  rw [← hcells]
  simp [tableLine, String.toList_intercalate]

/-- A table line splits into the cells that it is made of. -/
theorem splitsInto_tableLine {cells : List String} (hne : cells ≠ [])
    (hcells : ∀ cell ∈ cells, Undivided false cell.toList) :
    SplitsInto (tableLine cells) cells := by
  rw [SplitsInto, toList_tableLine hne, pieces, if_pos (by decide), List.cons_append]
  congr 1
  clear hne
  induction cells with
  | nil => rfl
  | cons cell more ih =>
      obtain ⟨hcell, hmore⟩ := List.forall_mem_cons.mp hcells
      -- the first pipe that divides is the one behind the cell's last blank
      have hblank : Undivided false (' ' :: cell.toList) := ⟨by decide, hcell⟩
      have hrest := hblank.pieces_append
        (more.flatMap fun cell => ' ' :: cell.toList ++ [' ', '|'])
      rw [ih hmore] at hrest
      simpa using hrest

end TimingReport.Markdown
