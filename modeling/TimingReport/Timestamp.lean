import TimingReport.Decimal.Fixed

/-!
# Timestamps

A point in local time of the proleptic Gregorian calendar. The year zero exists and
years before it are negative.
-/

namespace TimingReport

/-- A date and a time of day. A leap second is second 59 with a nanosecond of `10 ^ 9` or more. -/
structure Timestamp where
  year : Int
  month : Nat
  day : Nat
  hour : Nat
  minute : Nat
  second : Nat
  nanosecond : Nat := 0
deriving DecidableEq

namespace Timestamp

/-- A number with at least two digits. -/
def twoDigits (n : Nat) : String := String.ofList (Decimal.padLeft 2 '0' (Decimal.digits n))

/-- The year with at least four digits, and with a sign outside the years 0 to 9999. -/
def yearText (year : Int) : String :=
  let digits := String.ofList (Decimal.padLeft 4 '0' (Decimal.digits year.natAbs))
  if year < 0 then "-" ++ digits
  else if 9999 < year then "+" ++ digits
  else digits

/-- The layout of `text`, in the customary directives. -/
def layout : String := "%Y-%m-%d %H:%M:%S"

/-- The timestamp to the second. -/
def text (t : Timestamp) : String :=
  yearText t.year ++ "-" ++ twoDigits t.month ++ "-" ++ twoDigits t.day ++ " "
    ++ twoDigits t.hour ++ ":" ++ twoDigits t.minute ++ ":"
    ++ twoDigits (t.second + t.nanosecond / 1_000_000_000)

end Timestamp

end TimingReport
