import TimingReport.Csv
import TimingReport.Proofs.Decimal.Plain

/-!
# Reading a CSV document

A reader takes a document one character at a time. Fields are divided by commas and
records end with a line feed, which may follow a carriage return. A field that begins with
a quote ends with one, and until then commas and line breaks are characters of the field
and a doubled quote is one quote.

A written field ends at its own divider, whatever its characters are, so a document reads
back as its records.
-/

namespace TimingReport.Csv

/-! ## The reader -/

/-- Where in a record the next character stands. -/
inductive Place where
  /-- At the start of a field. -/
  | start
  /-- In a field without quotes. -/
  | bare
  /-- Between the quotes of a field. -/
  | quoted
  /-- Behind a quote that ends the field unless another one follows. -/
  | closed
  /-- Behind a carriage return that ends the record. -/
  | returned
deriving DecidableEq

/-- What has been read. -/
structure Reader where
  place : Place
  field : List Char
  fields : List String
  records : List (List String)
deriving DecidableEq

namespace Reader

/-- Between records, with these read so far. -/
def between (records : List (List String)) : Reader := ⟨.start, [], [], records⟩

/-- One more character of the field. -/
def add (reader : Reader) (c : Char) (place : Place) : Reader :=
  { reader with place, field := reader.field ++ [c] }

def endField (reader : Reader) : Reader :=
  { reader with place := .start, field := [], fields := reader.fields ++ [.ofList reader.field] }

def endRecord (reader : Reader) : Reader :=
  between (reader.records ++ [reader.endField.fields])

/-- What a divider does; other characters are no dividers. -/
def divide? (reader : Reader) : Char → Option Reader
  | ',' => some reader.endField
  | '\n' => some reader.endRecord
  | '\r' => some { reader with place := .returned }
  | _ => none

/-- Reads one character, if it may stand there. -/
def step (reader : Reader) (c : Char) : Option Reader :=
  match reader.place with
  | .start =>
      if c = '"' then some { reader with place := .quoted }
      else reader.divide? c <|> some (reader.add c .bare)
  | .bare => if c = '"' then none else reader.divide? c <|> some (reader.add c .bare)
  | .quoted => some (if c = '"' then { reader with place := .closed } else reader.add c .quoted)
  | .closed => if c = '"' then some (reader.add c .quoted) else reader.divide? c
  | .returned => if c = '\n' then some reader.endRecord else none

/-- All records, if the document may end here. The last record needs no line break. -/
def finish (reader : Reader) : Option (List (List String)) :=
  match reader.place with
  | .start => some (if reader.fields = [] then reader.records else reader.endRecord.records)
  | .bare => some reader.endRecord.records
  | .closed => some reader.endRecord.records
  | .quoted => none
  | .returned => none

end Reader

/-- The records of a document, if it is one. -/
def read? (document : List Char) : Option (List (List String)) := do
  (← document.foldlM Reader.step (.between [])).finish

/-! ## Characters -/

namespace Reader

/-- The field may end at this place. -/
def Complete (place : Place) : Prop := place = .start ∨ place = .bare ∨ place = .closed

variable {place : Place} (reader : Reader)

theorem step_comma (hplace : Complete reader.place) :
    reader.step ',' = some reader.endField := by
  rcases hplace with hplace | hplace | hplace <;> rw [step, hplace] <;> rfl

theorem step_lineFeed (hplace : Complete reader.place) :
    reader.step '\n' = some reader.endRecord := by
  rcases hplace with hplace | hplace | hplace <;> rw [step, hplace] <;> rfl

/-- Between quotes every character but a quote is one of the field. -/
theorem step_quoted {c : Char} (hplace : reader.place = .quoted) (hc : c ≠ '"') :
    reader.step c = some (reader.add c .quoted) := by
  rw [step, hplace]
  dsimp only
  rw [if_neg hc]

/-- A character that needs no quotes is one of the field. -/
theorem step_bare {c : Char} (hplace : reader.place = .start ∨ reader.place = .bare)
    (hc : ¬needsQuotes c) : reader.step c = some (reader.add c .bare) := by
  simp only [needsQuotes, Bool.or_eq_true, beq_iff_eq, not_or] at hc
  obtain ⟨⟨⟨hcomma, hquote⟩, hreturn⟩, hfeed⟩ := hc
  have hdivide : reader.divide? c = none := by
    unfold divide?
    split <;> first | contradiction | rfl
  rcases hplace with hplace | hplace <;>
  · rw [step, hplace]
    dsimp only
    rw [if_neg hquote, hdivide]
    rfl

end Reader

/-! ## Fields -/

open Reader

theorem doubleQuotes_cons_of_ne {c : Char} (hc : c ≠ '"') (rest : List Char) :
    doubleQuotes (c :: rest) = c :: doubleQuotes rest := by
  rw [doubleQuotes, List.flatMap_cons, if_neg hc]
  rfl

/-- Between quotes a text with doubled quotes is read as the text. -/
theorem foldlM_step_doubleQuotes (field : List Char) (reader : Reader)
    (hplace : reader.place = .quoted) :
    (doubleQuotes field).foldlM step reader =
      some { reader with field := reader.field ++ field } := by
  induction field generalizing reader with
  | nil =>
      rw [List.append_nil]
      rfl
  | cons c rest ih =>
      have hadd : (doubleQuotes rest).foldlM step (reader.add c .quoted) =
          some { reader with field := reader.field ++ c :: rest } := by
        rw [ih _ rfl, Reader.add, ← hplace]
        simp
      by_cases hc : c = '"'
      · -- the first quote may end the field, and the second takes that back
        have hfirst : reader.step '"' = some { reader with place := .closed } := by
          rw [step, hplace]
          rfl
        have hsecond : ({ reader with place := .closed } : Reader).step '"' =
            some (reader.add '"' .quoted) := rfl
        subst hc
        change ('"' :: '"' :: doubleQuotes rest).foldlM step reader = _
        rw [List.foldlM_cons, hfirst, Option.bind_eq_bind, Option.bind_some, List.foldlM_cons,
          hsecond, Option.bind_eq_bind, Option.bind_some]
        exact hadd
      · rw [doubleQuotes_cons_of_ne hc, List.foldlM_cons, step_quoted reader hplace hc,
          Option.bind_eq_bind, Option.bind_some]
        exact hadd

/-- A text without characters that need quotes is read as it is. -/
theorem foldlM_step_bare {field : List Char} (hfield : ∀ c ∈ field, ¬needsQuotes c)
    (reader : Reader) (hplace : reader.place = .start ∨ reader.place = .bare) :
    ∃ place, (place = .start ∨ place = .bare) ∧ field.foldlM step reader =
      some { reader with place, field := reader.field ++ field } := by
  induction field generalizing reader with
  | nil =>
      -- an empty field ends where it starts
      refine ⟨reader.place, hplace, ?_⟩
      rw [List.append_nil]
      rfl
  | cons c rest ih =>
      obtain ⟨hc, hrest⟩ := List.forall_mem_cons.mp hfield
      obtain ⟨place, hread, hfold⟩ := ih hrest (reader.add c .bare) (.inr rfl)
      refine ⟨place, hread, ?_⟩
      rw [List.foldlM_cons, step_bare reader hplace hc, Option.bind_eq_bind, Option.bind_some,
        hfold, Reader.add]
      simp

/-- A written field is read up to a place where it may end. -/
theorem foldlM_step_fieldText (field : List Char) (reader : Reader)
    (hplace : reader.place = .start) (hempty : reader.field = []) :
    ∃ place, Complete place ∧
      (fieldText field).foldlM step reader = some { reader with place, field } := by
  unfold fieldText
  split
  · next hquotes =>
    have hopening : reader.step '"' = some { reader with place := .quoted } := by
      rw [step, hplace]
      rfl
    have hinside := foldlM_step_doubleQuotes field { reader with place := .quoted } rfl
    refine ⟨.closed, .inr (.inr rfl), ?_⟩
    rw [List.cons_append, List.foldlM_cons, hopening, Option.bind_eq_bind, Option.bind_some,
      List.foldlM_append, hinside, Option.bind_eq_bind, Option.bind_some]
    dsimp only
    rw [hempty, List.nil_append]
    rfl
  · next hquotes =>
    have hfield : ∀ c ∈ field, ¬needsQuotes c := by simpa using hquotes
    obtain ⟨place, hread, hfold⟩ := foldlM_step_bare hfield reader (.inl hplace)
    rw [hempty, List.nil_append] at hfold
    refine ⟨place, ?_, hfold⟩
    rcases hread with hstart | hbare
    · exact .inl hstart
    · exact .inr (.inl hbare)

/-! ## Records -/

/-- The fields of a line are added to those before them, and the line ends the record. -/
theorem foldlM_step_fieldsText {texts : List (List Char)} (htexts : texts ≠ [])
    (fields : List String) (records : List (List String)) :
    (fieldsText texts ++ ['\n']).foldlM step ⟨.start, [], fields, records⟩ =
      some (between (records ++ [fields ++ texts.map String.ofList])) := by
  induction texts using fieldsText.induct generalizing fields with
  | case1 => exact absurd rfl htexts
  | case2 field =>
      obtain ⟨place, hcomplete, hfield⟩ :=
        foldlM_step_fieldText field ⟨.start, [], fields, records⟩ rfl rfl
      rw [fieldsText, List.foldlM_append, hfield, Option.bind_eq_bind, Option.bind_some,
        List.foldlM_cons, step_lineFeed _ hcomplete]
      rfl
  | case3 field rest hrest ih =>
      obtain ⟨place, hcomplete, hfield⟩ :=
        foldlM_step_fieldText field ⟨.start, [], fields, records⟩ rfl rfl
      have hothers := ih hrest (fields ++ [.ofList field])
      rw [List.append_assoc] at hothers
      rw [fieldsText, List.append_assoc, List.foldlM_append, hfield, Option.bind_eq_bind,
        Option.bind_some, List.cons_append, List.foldlM_cons, step_comma _ hcomplete,
        Option.bind_eq_bind, Option.bind_some]
      · exact hothers
      · exact hrest

theorem foldlM_step_recordText {fields : List String} (hfields : fields ≠ [])
    (records : List (List String)) :
    (recordText fields).foldlM step (between records) = some (between (records ++ [fields])) := by
  have htexts : fields.map String.toList ≠ [] := by simpa using hfields
  have hread := foldlM_step_fieldsText htexts [] records
  have hfield : String.ofList ∘ String.toList = id := funext fun _ => String.ofList_toList
  rw [List.nil_append, List.map_map, hfield, List.map_id] at hread
  exact hread

/-- Written records are added to those before them, in order. -/
theorem foldlM_step_records {lines : List (List String)} (hlines : ∀ fields ∈ lines, fields ≠ [])
    (records : List (List String)) :
    (lines.flatMap recordText).foldlM step (between records) =
      some (between (records ++ lines)) := by
  induction lines generalizing records with
  | nil =>
      rw [List.append_nil]
      rfl
  | cons fields lines ih =>
      obtain ⟨hfields, hlines⟩ := List.forall_mem_cons.mp hlines
      rw [List.flatMap_cons, List.foldlM_append, foldlM_step_recordText hfields,
        Option.bind_eq_bind, Option.bind_some, ih hlines, List.append_assoc]
      rfl

/-- Written records are read back, whatever their fields are. -/
theorem read?_records {lines : List (List String)} (hlines : ∀ fields ∈ lines, fields ≠ []) :
    read? (lines.flatMap recordText) = some lines := by
  rw [read?, foldlM_step_records hlines]
  rfl

/-- Lines may also end with a carriage return and a line feed, and the last one with nothing. -/
example : read? "a,\"b,\"\"\n\"\r\n,c".toList = some [["a", "b,\"\n"], ["", "c"]] := by decide

/-! ## The document -/

theorem read?_records_view (view : View) : read? (render view).toList = some (records view) := by
  rw [render, String.toList_ofList]
  refine read?_records fun line hline => ?_
  rcases List.mem_cons.mp hline with rfl | hrow
  · exact List.cons_ne_nil _ _
  · obtain ⟨s, _, hrow⟩ := List.mem_flatMap.mp hrow
    obtain ⟨row, _, rfl⟩ := List.mem_map.mp hrow
    exact List.cons_ne_nil _ _

theorem count_toString (n : Nat) : Decimal.count (toString n).toList = n := by
  rw [Nat.toString_eq_ofList_toDigits, String.toList_ofList]
  exact Decimal.count_digits n

theorem label_injective (a b : Category) (h : a.label = b.label) : a = b := by
  cases a <;> cases b <;> first | rfl | exact absurd h (by decide)

theorem word_injective (a b : Severity) (h : a.word = b.word) : a = b := by
  cases a <;> cases b <;> first | rfl | exact absurd h (by decide)

/-- The document of a view is read back as the names of the columns and one record of seven
fields for each row, in the order of the rows. The texts of the timings and of the count of
iterations give these back, so only a rate that is absent leaves its field empty, and the
first and the last field tell the category and the severity. -/
theorem read?_render (view : View) :
    read? (render view).toList = some (
      ["category", "name", "real_time_ns", "cpu_time_ns", "iterations", "items_per_second",
        "severity"] ::
      view.sections.flatMap fun s => s.rows.map fun row => [
        s.category.label,
        row.record.name,
        Decimal.plain row.record.realTime,
        Decimal.plain row.record.cpuTime,
        toString row.record.iterations.toNat,
        match row.record.itemsPerSecond with
        | some items => Decimal.plain items
        | none => "",
        row.severity.word]) ∧
    (∀ x : Binary64, Decimal.plain x ≠ "" ∧
      (¬x.isNaN → Decimal.read? (Decimal.plain x) = some x)) ∧
    (∀ n : Nat, Decimal.count (toString n).toList = n) ∧
    (∀ a b : Category, a.label = b.label → a = b) ∧
    ∀ a b : Severity, a.word = b.word → a = b := by
  refine ⟨?_, fun x => ⟨Decimal.plain_ne_empty x, Decimal.read?_plain⟩, count_toString,
    label_injective, word_injective⟩
  have hfields : ∀ (category : Category) (row : Row), fields category row = [
      category.label,
      row.record.name,
      Decimal.plain row.record.realTime,
      Decimal.plain row.record.cpuTime,
      toString row.record.iterations.toNat,
      match row.record.itemsPerSecond with
      | some items => Decimal.plain items
      | none => "",
      row.severity.word] := by
    intro category row
    unfold fields
    cases row.record.itemsPerSecond <;> rfl
  rw [read?_records_view, records]
  simp only [← hfields]
  rfl

end TimingReport.Csv
