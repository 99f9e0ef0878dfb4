import TimingReport.Decimal.Fixed
import TimingReport.Decimal.Grouped
import TimingReport.Record

/-!
# Amounts as text

Durations and sizes are shown in the largest unit that they reach, with two decimal
places. Counts are grouped, and a throughput is a whole number of items.
-/

namespace TimingReport

namespace Amount

/-- Units of which each is `step` times the one before. -/
structure Scale where
  step : Nat
  first : String
  larger : List String

/-- The values at which the larger units begin. -/
def Scale.divisor (scale : Scale) (tier : Nat) : Binary64 := .ofNat (Nat.pow scale.step tier)

/-- The largest tier of at most the given one that a value reaches. -/
def Scale.tierUpTo (scale : Scale) (value : Binary64) : Nat → Nat
  | 0 => 0
  | tier + 1 =>
      if (scale.divisor (tier + 1)).le value then tier + 1 else scale.tierUpTo value tier

/-- The tier that a value is shown in; the last one takes all that is larger. -/
def Scale.tier (scale : Scale) (value : Binary64) : Nat :=
  scale.tierUpTo value scale.larger.length

/-- The symbol of a tier. -/
def Scale.symbol (scale : Scale) (tier : Nat) : String := (scale.first :: scale.larger).getD tier ""

/-- The value in the unit of its tier. -/
def Scale.text (scale : Scale) (value : Binary64) : String :=
  let tier := scale.tier value
  Decimal.fixed 2 (value / scale.divisor tier) ++ " " ++ scale.symbol tier

/-- The units of time, from the nanosecond. -/
def time : Scale := ⟨1000, "ns", ["μs", "ms", "s"]⟩

/-- The units of size, from the byte. -/
def size : Scale := ⟨1024, "B", ["KB", "MB", "GB"]⟩

end Amount

/-- A duration in nanoseconds as text. -/
def durationText (nanoseconds : Binary64) : String := Amount.time.text nanoseconds

/-- A size in bytes as text. -/
def sizeText (bytes : Binary64) : String := Amount.size.text bytes

/-- A count as text. -/
def countText (count : Nat) : String := Decimal.grouped count

/-- A throughput as text; one that is absent or not positive is not available. -/
def throughputText : Option Binary64 → String
  | some items =>
      if (Binary64.zero false).lt items then Decimal.fixed 0 items ++ " items/sec" else notAvailable
  | none => notAvailable

/-- How much attention a real time deserves. -/
inductive Severity where
  | good
  | warning
  | danger
deriving DecidableEq

namespace Severity

/-- Real times below this many nanoseconds are good. -/
def goodBelow : Nat := 1_000_000

/-- Real times below this many nanoseconds are at most a warning. -/
def warningBelow : Nat := 10_000_000

/-- The severity of a real time in nanoseconds. -/
def ofTime (nanoseconds : Binary64) : Severity :=
  if nanoseconds.lt (.ofNat goodBelow) then good
  else if nanoseconds.lt (.ofNat warningBelow) then warning
  else danger

/-- The word for the severity. -/
def word : Severity → String
  | good => "good"
  | warning => "warning"
  | danger => "danger"

end Severity

end TimingReport
