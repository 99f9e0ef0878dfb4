import TimingReport.Decimal.Nearest
import TimingReport.Toml.Node
import TimingReport.Toml.Text

/-!
# Numbers, dates and times of TOML

Digits may be divided by single underscores. An integer fits 64 bits with its sign, and a
real number has a fraction or an exponent.
-/

namespace TimingReport.Toml

/-- More digits, with an underscore before any of them. -/
def moreDigits (isDigit : Char → Bool) : List Char → Option (List Char × List Char)
  | '_' :: c :: rest =>
      if isDigit c then (moreDigits isDigit rest).map fun (ds, s) => (c :: ds, s) else none
  | c :: rest =>
      if isDigit c then (moreDigits isDigit rest).map fun (ds, s) => (c :: ds, s)
      else if c = '_' then none
      else some ([], c :: rest)
  | [] => some ([], [])

/-- One or more digits. -/
def someDigits (isDigit : Char → Bool) : Scan (List Char)
  | c :: rest =>
      if isDigit c then (moreDigits isDigit rest).map fun (ds, s) => (c :: ds, s) else none
  | [] => none

/-- The sign at the front: whether it is negative, and what is left. -/
def sign : List Char → Bool × List Char
  | '+' :: rest => (false, rest)
  | '-' :: rest => (true, rest)
  | s => (false, s)

/-- Decimal digits that start with no superfluous zero. -/
def wholeDigits : Scan (List Char)
  | '0' :: rest => some (['0'], rest)
  | s => someDigits Char.isDigit s

/-! ## Integers -/

/-- The integer, if it fits 64 bits. -/
def bounded (n : Int) : Option Node :=
  if -0x8000_0000_0000_0000 ≤ n ∧ n ≤ 0x7FFF_FFFF_FFFF_FFFF then some (.integer n) else none

/-- The integer of digits to a base. -/
def integerTo (base : Nat) (s : List Char) : Option (Node × List Char) := do
  let isDigit (c : Char) : Bool := ((hexValue? c).getD base) < base
  let (digits, rest) ← someDigits isDigit s
  let value : Nat := digits.foldl (fun n c => n * base + (hexValue? c).getD 0) 0
  return (← bounded value, rest)

/-- An integer. -/
def integer : Scan Node
  | '0' :: 'x' :: rest => integerTo 16 rest
  | '0' :: 'o' :: rest => integerTo 8 rest
  | '0' :: 'b' :: rest => integerTo 2 rest
  | s => do
      let (negative, s) := sign s
      let (digits, rest) ← wholeDigits s
      let value : Nat := Decimal.count digits
      return (← bounded (if negative then -(value : Int) else value), rest)

/-! ## Real numbers -/

/-- The exponent at the front, which must be there. -/
def exponent : Scan Int
  | c :: rest =>
      if c = 'e' ∨ c = 'E' then do
        let (negative, s) := sign rest
        let (digits, rest) ← someDigits Char.isDigit s
        let value : Nat := Decimal.count digits
        return (if negative then -(value : Int) else value, rest)
      else none
  | [] => none

/-- The digits of a fraction at the front, which may be absent. -/
def fraction : Scan (List Char)
  | '.' :: rest => someDigits Char.isDigit rest
  | s => some ([], s)

/-- Infinity or what is no number, behind its sign. -/
def special (negative : Bool) : Scan Node
  | 'i' :: 'n' :: 'f' :: rest => some (.real (.infinite negative), rest)
  | 'n' :: 'a' :: 'n' :: rest => some (.real .nan, rest)
  | _ => none

/-- A real number. One that is too large is refused unless it is negative. -/
def real (s : List Char) : Option (Node × List Char) := do
  let (negative, s) := sign s
  match special negative s with
  | some found => some found
  | none =>
      let (whole, afterWhole) ← wholeDigits s
      let (places, afterFraction) ← fraction afterWhole
      let (power, rest) := (exponent afterFraction).getD (0, afterFraction)
      if rest.length = afterWhole.length then none
      else
        let x := Decimal.nearest negative (Decimal.count (whole ++ places)) (power - places.length)
        if x.isInfinite && !negative then none else return (.real x, rest)

/-! ## Dates and times -/

/-- A number of exactly `count` digits from `least` to `most`. -/
def numeral (count least most : Nat) (s : List Char) : Option (Nat × List Char) :=
  let digits := s.take count
  let value := Decimal.count digits
  if digits.length = count ∧ digits.all Char.isDigit ∧ least ≤ value ∧ value ≤ most then
    some (value, s.drop count)
  else none

/-- What is left after a character that must be there. -/
def mark (c : Char) : List Char → Option (List Char)
  | d :: rest => if d = c then some rest else none
  | [] => none

/-- The days of a month. -/
def daysOf (year month : Nat) : Nat :=
  if month = 2 then
    if year % 4 = 0 ∧ (year % 100 ≠ 0 ∨ year % 400 = 0) then 29 else 28
  else if month = 4 ∨ month = 6 ∨ month = 9 ∨ month = 11 then 30
  else 31

/-- What is left after a date. -/
def date (s : List Char) : Option (List Char) := do
  let (year, s) ← numeral 4 0 9999 s
  let s ← mark '-' s
  let (month, s) ← numeral 2 1 12 s
  let s ← mark '-' s
  let (_, s) ← numeral 2 1 (daysOf year month) s
  return s

/-- What is left after a fraction of a second, if there is one. -/
def secondFraction : List Char → List Char
  | '.' :: c :: rest => if c.isDigit then rest.dropWhile Char.isDigit else '.' :: c :: rest
  | s => s

/-- What is left after an hour and a minute. -/
def clock (s : List Char) : Option (List Char) := do
  let (_, s) ← numeral 2 0 23 s
  let s ← mark ':' s
  let (_, s) ← numeral 2 0 59 s
  return s

/-- What is left after a time; a minute may have a leap second. -/
def time (s : List Char) : Option (List Char) := do
  let s ← mark ':' (← clock s)
  let (_, s) ← numeral 2 0 60 s
  return secondFraction s

/-- What is left after an offset from universal time. -/
def offset : List Char → Option (List Char)
  | 'Z' :: rest => some rest
  | 'z' :: rest => some rest
  | '+' :: rest => clock rest
  | '-' :: rest => clock rest
  | _ => none

/-- What is left after a time that follows a date, if there is one. -/
def timeOfDate (s : List Char) : List Char :=
  match s with
  | c :: rest =>
      if c = 'T' ∨ c = 't' ∨ c = ' ' then
        match time rest with
        | some s => (offset s).getD s
        | none => s
      else s
  | [] => []

/-- A date, a time, or both. -/
def moment (s : List Char) : Option (Node × List Char) :=
  match date s with
  | some rest => some (.moment, timeOfDate rest)
  | none => (time s).map fun rest => (.moment, rest)

/-- A date, a time or a number. -/
def number (s : List Char) : Option (Node × List Char) :=
  (moment s).or ((real s).or (integer s))

end TimingReport.Toml
