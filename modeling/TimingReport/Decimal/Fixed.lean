import TimingReport.Binary64

/-!
# Decimal text with a fixed number of places

The exact value of a binary64 number is rounded once to the wanted number of
decimal places, a half to the even neighbour, and written without an exponent.
-/

namespace TimingReport.Decimal

/-- The decimal digits of a natural number, without leading zeros. -/
def digits (n : Nat) : List Char := Nat.toDigits 10 n

/-- `text` filled up with `fill` on the left to at least `width` characters. -/
def padLeft (width : Nat) (fill : Char) (text : List Char) : List Char :=
  List.replicate (width - text.length) fill ++ text

/-- A count of `10 ^ -places`, written with exactly `places` digits after the point. -/
def pointed (places n : Nat) : List Char :=
  if places = 0 then digits n
  else digits (n / Nat.pow 10 places)
    ++ '.' :: padLeft places '0' (digits (n % Nat.pow 10 places))

/-- The magnitude of a finite number in units of `10 ^ -places`. -/
def scaledUnits (places : Nat) (x : Binary64) : Nat :=
  Binary64.roundHalfEven (x.units * Nat.pow 10 places) Binary64.unit

/-- The number with `places` digits after the point. A negative sign is kept on zeros,
and a pattern that is not a number shows none. -/
def fixed (places : Nat) (x : Binary64) : String :=
  if x.isNaN then "NaN"
  else
    let body :=
      if x.isInfinite then "inf" else String.ofList (pointed places (scaledUnits places x))
    if x.negative then "-" ++ body else body

end TimingReport.Decimal
