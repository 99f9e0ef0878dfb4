import TimingReport.Proofs.Progress.Lines

/-!
# Paths on the console

The line of a loaded source ends with its path, and the line of a written file names the path
of that file. Both are recorded without the quotes at their ends, whoever put them there, so
the lines show exactly those paths as they are that neither begin nor end with one.
-/

namespace TimingReport

open Console

namespace Progress

/-- A count on a line, which is kept in 64 bits. -/
def shownCount (count : Nat) : String := Decimal.grouped (count % UInt64.size)

/-- The line of a loaded source with the given path on it. -/
def loadedLine (elapsed records : Nat) (source : String) : String :=
  Event.elapsedText elapsed ++ " " ++ (paintBold .green "▶" ++ " Loaded " ++
    paint .yellow (shownCount records) ++ " benchmarks" ++ Event.divider ++ paint .white source)

/-- The line of a written file with the given path on it. -/
def writtenLine (elapsed bytes : Nat) (path : String) : String :=
  Event.elapsedText elapsed ++ " " ++ (paintBold .green "■" ++ " Wrote " ++
    paintBold .white path ++ Event.divider ++ paint .magenta (sizeText (.ofNat bytes)))

theorem loadedLine_inj {elapsed records : Nat} {source other : String} :
    loadedLine elapsed records source = loadedLine elapsed records other ↔ source = other := by
  simp only [loadedLine, paint, String.append_right_inj, String.append_left_inj]

theorem writtenLine_inj {elapsed bytes : Nat} {path other : String} :
    writtenLine elapsed bytes path = writtenLine elapsed bytes other ↔ path = other := by
  simp only [writtenLine, paintBold, bold, paint, String.append_right_inj,
    String.append_left_inj]

/-- The lines show the paths without the quotes at their ends, which is the paths themselves
exactly if they have none there. -/
theorem line?_shows_paths (elapsed records bytes : Nat) (source path : String) :
    line? elapsed (.loaded source records) =
        some (loadedLine elapsed records (Text.trimQuotes source)) ∧
      (line? elapsed (.loaded source records) = some (loadedLine elapsed records source) ↔
        Text.Unquoted source) ∧
      line? elapsed (.written path bytes) =
        some (writtenLine elapsed bytes (Text.trimQuotes path)) ∧
      (line? elapsed (.written path bytes) = some (writtenLine elapsed bytes path) ↔
        Text.Unquoted path) := by
  have hloaded : line? elapsed (.loaded source records) =
      some (loadedLine elapsed records (Text.trimQuotes source)) := line?_eq elapsed _
  have hwritten : line? elapsed (.written path bytes) =
      some (writtenLine elapsed bytes (Text.trimQuotes path)) := by
    have hsize := Text.trimQuotes_of_figures (Amount.figures_sizeText (.ofNat bytes))
    rw [line?_eq, writtenLine, event, hsize]
    rfl
  simp only [hloaded, hwritten, Option.some_inj, loadedLine_inj, writtenLine_inj,
    Text.trimQuotes_eq_self_iff, and_self]

/-- A path that is quoted itself is shown without its quotes. -/
theorem line?_drops_quotes :
    line? 0 (.loaded "\"run.json\"" 3) ≠ some (loadedLine 0 3 "\"run.json\"") ∧
      line? 0 (.loaded "\"run.json\"" 3) = some (loadedLine 0 3 "run.json") ∧
      line? 0 (.written "out/\"run.html\"" 3) ≠ some (writtenLine 0 3 "out/\"run.html\"") ∧
      line? 0 (.written "out/\"run.html\"" 3) = some (writtenLine 0 3 "out/\"run.html") := by
  decide +kernel

end Progress

end TimingReport
