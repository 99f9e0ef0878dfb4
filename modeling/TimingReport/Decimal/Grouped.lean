import TimingReport.Decimal.Fixed

/-!
# Counts with grouped digits

The digits of a count are set in groups of three, counted from the right and
divided by commas.
-/

namespace TimingReport.Decimal

/-- A comma after every digit that has a positive multiple of three digits behind it. -/
def separate : List Char → List Char
  | [] => []
  | digit :: rest =>
      if rest.length % 3 = 0 ∧ rest ≠ [] then digit :: ',' :: separate rest
      else digit :: separate rest

/-- A natural number with its digits in groups of three. -/
def grouped (n : Nat) : String := String.ofList (separate (digits n))

end TimingReport.Decimal
