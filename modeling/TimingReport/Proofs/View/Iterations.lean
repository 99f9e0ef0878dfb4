import TimingReport.Proofs.Csv.Reader
import TimingReport.Proofs.Decimal.Grouped
import TimingReport.Proofs.Markdown.Tables
import TimingReport.Proofs.Page.Contents

/-!
# Iterations in documents

All three documents of a run tell the iterations of its records exactly. The CSV document has
their digits as they are. The page and the Markdown document have the digits in groups, which
are the same digits without the commas.
-/

namespace TimingReport

namespace View

/-- The rows of all sections. -/
def rows (view : View) : List Row := view.sections.flatMap Section.rows

/-- Among the cells of a row, that of the iterations has the digits in groups. -/
def HasGrouped (digits : List Char) (cells : List String) : Prop :=
  ∃ cell, cells[Page.headings.idxOf "Iterations"]? = some cell ∧
    Decimal.IsGrouped digits cell.toList

/-- The documents of a view, read back line by line, have the digits as the iterations of the
record wherever it has a row. -/
structure ShowsIterations (view : View) (record : Record) (digits : List Char) : Prop where
  row : ∃ row ∈ view.rows, row.record = record
  csv : ∃ lines, Csv.read? (Csv.render view).toList = some (Csv.header :: lines) ∧
    List.Forall₂ (fun row fields => row.record = record →
      fields[Csv.header.idxOf "iterations"]? = some (String.ofList digits)) view.rows lines
  page : List.Forall₂ (fun row cells => row.record = record → HasGrouped digits cells)
    view.rows (Page.readRows (Page.render view).toList)
  markdown : ∀ s ∈ view.sections, ∃ before lines after,
    Markdown.render view =
      before ++ String.join ((Markdown.tableHead ++ lines).map (· ++ "\n")) ++ after ∧
    List.Forall₂ (fun row line => row.record = record →
      ∃ cells, Markdown.SplitsInto line cells ∧ HasGrouped digits cells) s.rows lines

/-! ## Documents -/

variable {record : Record} {digits : List Char}

theorem getElem?_fields (hdigits : Decimal.digits record.iterations.toNat = digits)
    (category : Category) {row : Row} (hrow : row.record = record) :
    (Csv.fields category row)[Csv.header.idxOf "iterations"]? = some (String.ofList digits) := by
  have htext : toString record.iterations.toNat = String.ofList digits := by
    rw [Nat.toString_eq_ofList_toDigits, ← hdigits, Decimal.digits]
  rw [← htext, ← hrow]
  rfl

theorem isGrouped_iterations (hdigits : Decimal.digits record.iterations.toNat = digits) :
    Decimal.IsGrouped digits (Row.ofRecord record).iterations.toList := by
  rw [← hdigits]
  exact Decimal.isGrouped_grouped _

/-- The documents of a run show the digits of a record's iterations. -/
theorem showsIterations_ofRun (run : Run) (table : RuleTable) (title : String) (now : Timestamp)
    (hrecord : record ∈ run.records) (hdigits : Decimal.digits record.iterations.toNat = digits) :
    (ofRun run table title now).ShowsIterations record digits := by
  have hfigures := ofRun_showsFigures run table title now
  have hgrouped : ∀ s ∈ (ofRun run table title now).sections, ∀ row ∈ s.rows,
      row.record = record → Decimal.IsGrouped digits row.iterations.toList := by
    rintro s hs row hrow rfl
    obtain ⟨record, -, rfl⟩ := (mem_rows_iff run table title now).mp ⟨s, hs, hrow⟩
    exact isGrouped_iterations hdigits
  constructor
  case row =>
    have hrow := (mem_rows_iff run table title now).mpr ⟨record, hrecord, rfl⟩
    exact ⟨.ofRecord record, List.mem_flatMap.mpr hrow, rfl⟩
  case csv =>
    refine ⟨_, Csv.read?_records_view _, ?_⟩
    have hsections : List.Forall₂ Eq (ofRun run table title now).sections
        (ofRun run table title now).sections := List.forall₂_refl _
    refine List.rel_flatMap hsections ?_
    rintro s _ rfl
    rw [List.forall₂_map_right_iff, List.forall₂_same]
    exact fun row _ hrow => getElem?_fields hdigits s.category hrow
  case page =>
    have hread : Page.readRows (Page.render (ofRun run table title now)).toList =
        (ofRun run table title now).rows.map Page.rowTexts := by
      rw [rows, List.map_flatMap]
      exact (Page.finds_rows hfigures).readEach_eq
    rw [hread, List.forall₂_map_right_iff, List.forall₂_same]
    intro row hmem hrow
    obtain ⟨s, hs, hmem⟩ := List.mem_flatMap.mp hmem
    exact ⟨row.iterations, rfl, hgrouped s hs row hmem hrow⟩
  case markdown =>
    intro s hs
    obtain ⟨before, after, hrender⟩ := Markdown.render_eq_of_mem hs
    refine ⟨before, s.rows.map Markdown.rowLine, after, hrender, ?_⟩
    rw [List.forall₂_map_right_iff, List.forall₂_same]
    intro row hmem hrow
    exact ⟨_, Markdown.splitsInto_rowLine ((hfigures s hs).rows row hmem), row.iterations, rfl,
      hgrouped s hs row hmem hrow⟩

end View

end TimingReport
