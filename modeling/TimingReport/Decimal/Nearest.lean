import TimingReport.Binary64
import TimingReport.Decimal.Fixed

/-!
# The binary64 number nearest to a decimal
-/

namespace TimingReport.Decimal

/-- The binary64 number nearest to `coefficient * 10 ^ exponent`; the even one of two that
are equally near. A value far above or below all binary64 numbers is decided by its count
of places, so that no large power is needed for it. -/
def nearest (negative : Bool) (coefficient : Nat) (exponent : Int) : Binary64 :=
  let places : Int := (digits coefficient).length + exponent
  if coefficient = 0 ∨ places < -330 then .zero negative
  else if 310 < places then .infinite negative
  else
    .ofUnits negative (coefficient * Nat.pow 10 exponent.toNat * Binary64.unit)
      (Nat.pow 10 (-exponent).toNat)

/-- The count that decimal digits write. -/
def count (text : List Char) : Nat :=
  text.foldl (fun n c => n * 10 + (c.toNat - '0'.toNat)) 0

end TimingReport.Decimal
