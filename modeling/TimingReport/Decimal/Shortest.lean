import TimingReport.Decimal.Fixed

/-!
# The shortest decimal that reads back

Of all decimals that round to a given binary64 number, the shortest text names one
with the fewest digits, and of those the nearest to the number; if two are equally
near, the larger one.

The numbers that round to a pattern form an interval between the midpoints to its
two neighbours, ends included exactly for an even pattern. On each decimal grid only
the two grid points around the number itself can lie in that interval first.
-/

namespace TimingReport.Decimal

/-- A decimal `0.d₁d₂… × 10 ^ exponent` given by its digits. -/
structure Shortest where
  digits : List Char
  exponent : Int

namespace Shortest

/-- The half-units between which every number rounds to the pattern. -/
structure Interval where
  low : Nat
  high : Nat
  closed : Bool

def Interval.ofPattern (pattern : Nat) : Interval where
  low := Binary64.unitsOf pattern + Binary64.unitsOf (pattern - 1)
  high := Binary64.unitsOf pattern + Binary64.unitsOf (pattern + 1)
  closed := pattern % 2 == 0

/-- The interval holds `num / den` half-units. -/
def Interval.holds (i : Interval) (num den : Nat) : Bool :=
  if i.closed then i.low * den ≤ num && num ≤ i.high * den
  else i.low * den < num && num < i.high * den

/-- The least exponent whose power of ten is above the value, which is positive. -/
def exponentOf (units : Nat) : Int :=
  (Decimal.digits (units * Nat.pow 10 400 / Binary64.unit)).length - 400

/-- The grid point with `count` digits that rounds to the pattern, if there is one: the
nearer of the two points around the value, the upper one when both are equally near. -/
def onGrid? (pattern : Nat) (exponent : Int) (count : Nat) : Option Nat :=
  let interval := Interval.ofPattern pattern
  let up := Nat.pow 10 (exponent - count).toNat
  let down := Nat.pow 10 (count - exponent).toNat
  -- A grid point `c` is `c * up / down`, or `c * cell / down` half-units.
  let cell := 2 * Binary64.unit * up
  let value := 2 * Binary64.unitsOf pattern * down
  let below := value / cell
  let rest := value % cell
  let lowerHolds := interval.holds (below * cell) down
  let upperHolds := interval.holds ((below + 1) * cell) down
  if lowerHolds && upperHolds then
    if 2 * rest < cell then some below else some (below + 1)
  else if lowerHolds then some below
  else if upperHolds then some (below + 1)
  else none

/-- Seventeen digits always suffice. -/
def maxDigits : Nat := 17

/-- The shortest decimal of a positive finite magnitude pattern. -/
def ofPattern (pattern : Nat) : Shortest :=
  let exponent := exponentOf (Binary64.unitsOf pattern)
  match (List.range' 1 maxDigits).findSome? fun count =>
      (onGrid? pattern exponent count).map fun point => (count, point) with
  | some (count, point) =>
      let text := Decimal.digits point
      -- A point one past the last of its grid carries into the next exponent.
      ⟨(text.reverse.dropWhile (· == '0')).reverse, exponent + text.length - count⟩
  | none => ⟨[], 0⟩

end Shortest

/-! ## Notations -/

/-- The digits in positional notation, without an exponent and without a needless point. -/
def positional (d : Shortest) : List Char :=
  if d.exponent ≤ 0 then
    '0' :: '.' :: List.replicate (-d.exponent).toNat '0' ++ d.digits
  else if d.digits.length ≤ d.exponent then
    d.digits ++ List.replicate (d.exponent - d.digits.length).toNat '0'
  else d.digits.take d.exponent.toNat ++ '.' :: d.digits.drop d.exponent.toNat

/-- The text with the sign of the number, and the texts of what is no finite number. -/
def signed (x : Binary64) (finite : Binary64 → List Char) : String :=
  if x.isNaN then "NaN"
  else
    let body := if x.isInfinite then "inf" else String.ofList (finite x)
    if x.negative then "-" ++ body else body

/-- The shortest text in positional notation, `5` and not `5.0`. -/
def plain (x : Binary64) : String :=
  signed x fun x => if x.magnitude == 0 then ['0'] else positional (.ofPattern x.magnitude)

/-- The shortest text in positional notation, with a decimal point on every finite number. -/
def plainPointed (x : Binary64) : String :=
  signed x fun x =>
    let text := if x.magnitude == 0 then ['0'] else positional (.ofPattern x.magnitude)
    if text.contains '.' then text else text ++ ['.', '0']

/-- An exponent with its sign and at least two digits. -/
def exponentText (exponent : Int) : List Char :=
  'e' :: (if exponent < 0 then '-' else '+') :: padLeft 2 '0' (digits exponent.natAbs)

/-- One digit before the point, and an exponent. -/
def scientific (d : Shortest) : List Char :=
  match d.digits with
  | [] => ['0']
  | [digit] => digit :: exponentText (d.exponent - 1)
  | digit :: rest => digit :: '.' :: rest ++ exponentText (d.exponent - 1)

/-- The shortest text with a point or an exponent: positional for values from `1e-5` to
below `1e16`, scientific outside. -/
def compact (x : Binary64) : String :=
  signed x fun x =>
    if x.magnitude == 0 then ['0', '.', '0']
    else
      let d := Shortest.ofPattern x.magnitude
      if -5 < d.exponent ∧ d.exponent ≤ 16 then
        let text := positional d
        if text.contains '.' then text else text ++ ['.', '0']
      else scientific d

end TimingReport.Decimal
