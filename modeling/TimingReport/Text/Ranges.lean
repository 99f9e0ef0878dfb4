/-!
# Sets of characters given by ranges

Character classes of the Unicode standard are written as lists of ranges of code points.
-/

namespace TimingReport.Text

/-- The code point lies in one of the ranges, ends included. -/
def inRanges (ranges : List (Nat × Nat)) (code : Nat) : Bool :=
  ranges.any fun (first, last) => first ≤ code && code ≤ last

end TimingReport.Text
