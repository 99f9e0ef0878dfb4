import TimingReport.Text.Ranges
import TimingReport.Text.CaseTable
import TimingReport.Text.CaseContext

/-!
# Lower and upper case of texts

Texts are mapped with the full Unicode rules: one character may become several, and a
capital sigma at the end of a word becomes the final form.
-/

namespace TimingReport.Text

/-- The image of a code point under single-character runs. -/
def mapRuns (runs : List CaseRun) (code : Nat) : Nat :=
  match runs.find? (·.covers code) with
  | some run => (code + run.distance).toNat
  | none => code

/-- The image of a character beyond ASCII under a mapping. -/
def mapCase (runs : List CaseRun) (long : List (Nat × List Nat)) (c : Char) : List Char :=
  match long.lookup c.toNat with
  | some codes => codes.map Char.ofNat
  | none => [Char.ofNat (mapRuns runs c.toNat)]

/-- The lower case of a character without regard to its neighbours. -/
def lowerChar (c : Char) : List Char :=
  if c.toNat < 0x80 then [c.toLower] else mapCase lowerRuns lowerLong c

/-- The upper case of a character. -/
def upperChar (c : Char) : List Char :=
  if c.toNat < 0x80 then [c.toUpper] else mapCase upperRuns upperLong c

/-- The first character that case decisions do not look past is cased. -/
def meetsCased (cs : List Char) : Bool :=
  match cs.dropWhile fun c => inRanges caseIgnorable c.toNat with
  | c :: _ => inRanges caseBearing c.toNat
  | [] => false

/-- The lower case of a text, given the characters before it from right to left. -/
def lowerAfter : List Char → List Char → List Char
  | _, [] => []
  | before, c :: rest =>
      (if c = 'Σ' then
        [if meetsCased before && !meetsCased rest then 'ς' else 'σ']
      else lowerChar c) ++ lowerAfter (c :: before) rest

/-- The text in lower case. -/
def lower (text : String) : String := String.ofList (lowerAfter [] text.toList)

/-- The text in upper case. -/
def upper (text : String) : String := String.ofList (text.toList.flatMap upperChar)

end TimingReport.Text
