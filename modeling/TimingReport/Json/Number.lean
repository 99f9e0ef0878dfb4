import TimingReport.Json.Symbols

/-!
# Numbers of JSON

A number without point and exponent that fits 64 bits is an integer; every other number
is real. The digits of a real number are gathered, without its point, into a 64-bit
count until the next one would not fit. That count is rounded to a binary64 number and
scaled by a power of ten, so the result need not be the binary64 number nearest to the
text.
-/

namespace TimingReport.Json

/-- A number as it is read. -/
inductive Number where
  | integer (value : Int)
  | real (value : Binary64)

/-- The largest count of digits. -/
def maxCount : Nat := 0xFFFF_FFFF_FFFF_FFFF

/-- The value of a digit. -/
def digitValue : Option Char → Nat
  | some c => c.toNat - '0'.toNat
  | none => 0

/-- Digits gathered into a count as long as it fits, and the digits that are left. -/
def gather (count : Nat) : List Nat → Nat × List Nat
  | [] => (count, [])
  | d :: rest =>
      if maxCount < count * 10 + d then (count, d :: rest) else gather (count * 10 + d) rest

/-- The digits at the front, and what is left. -/
def spanDigits (s : Symbols) : List Nat × Symbols :=
  ((s.takeWhile isDigit).map digitValue, s.dropWhile isDigit)

/-- The power of ten that one division takes at most. -/
def maxPower : Nat := 308

/-- The number divided `blocks` times by the largest power of ten, until it is zero, and
then by ten to the `last`. -/
def scaleDown (last : Nat) : Nat → Binary64 → Binary64
  | 0, x => x / .ofNat (Nat.pow 10 last)
  | blocks + 1, x =>
      if x.magnitude == 0 then x else scaleDown last blocks (x / .ofNat (Nat.pow 10 maxPower))

/-- A count times a power of ten. -/
def scaled (count : Nat) (exponent : Int) : Except Fault Binary64 :=
  let x := Binary64.ofNat count
  if 0 ≤ exponent then
    if x.magnitude == 0 then .ok x
    else if maxPower < exponent then .error .numberOutOfRange
    else
      let product := x * .ofNat (Nat.pow 10 exponent.toNat)
      if product.isInfinite then .error .numberOutOfRange else .ok product
  else
    let places := (-exponent).toNat
    let blocks := (places - 1) / maxPower
    .ok (scaleDown (places - maxPower * blocks) blocks x)

/-- A real number with its sign. -/
def realNumber (positive : Bool) (x : Binary64) : Number := .real (if positive then x else -x)

/-- Exponents above this one are not counted. -/
def maxExponent : Nat := 0x7FFF_FFFF

/-- Whether the sign at the front of an exponent, if there is one, is no minus. -/
def readSign : Symbols → Bool × Symbols
  | some '+' :: rest => (true, rest)
  | some '-' :: rest => (false, rest)
  | s => (true, s)

/-- The rest of a number after the `e` of its exponent. -/
def readExponent (positive : Bool) (count : Nat) (start : Int) (s : Symbols) :
    Except Fault (Number × Symbols) := do
  let (up, s) := readSign s
  let (digits, rest) := spanDigits s
  if digits.isEmpty then
    .error (if s.isEmpty then .endInValue else .invalidNumber)
  else
    let exponent : Nat := digits.foldl (fun n d => n * 10 + d) 0
    if maxExponent < exponent then
      if up && count ≠ 0 then .error .numberOutOfRange
      else return (realNumber positive (.zero false), rest)
    else
      let x ← scaled count (if up then start + exponent else start - exponent)
      return (realNumber positive x, rest)

/-- The rest of a real number after its digits. -/
def readScale (positive : Bool) (count : Nat) (exponent : Int) (s : Symbols) :
    Except Fault (Number × Symbols) :=
  match s with
  | some 'e' :: rest => readExponent positive count exponent rest
  | some 'E' :: rest => readExponent positive count exponent rest
  | s => (scaled count exponent).map fun x => (realNumber positive x, s)

/-- The rest of a number after its point, when `dropped` whole digits were left out. -/
def readFraction (positive : Bool) (count dropped : Nat) (s : Symbols) :
    Except Fault (Number × Symbols) :=
  let (digits, rest) := spanDigits s
  if digits.isEmpty then
    .error (if s.isEmpty then .endInValue else .invalidNumber)
  else
    let (count, left) := gather count digits
    readScale positive count ((dropped : Int) - ((digits.length - left.length : Nat) : Int)) rest

/-- A count with its sign: an integer if it fits 64 bits with the sign, and no zero with one. -/
def wholeNumber (positive : Bool) (count : Nat) : Number :=
  if positive then .integer count
  else if 0 < count ∧ count ≤ 0x8000_0000_0000_0000 then .integer (-(count : Int))
  else .real (-(.ofNat count))

/-- The rest of a number after its whole digits, of which `dropped` were left out. -/
def readTail (positive : Bool) (count dropped : Nat) (s : Symbols) :
    Except Fault (Number × Symbols) :=
  match s with
  | some '.' :: rest => readFraction positive count dropped rest
  | some 'e' :: rest => readExponent positive count dropped rest
  | some 'E' :: rest => readExponent positive count dropped rest
  | s =>
      if dropped = 0 then .ok (wholeNumber positive count, s)
      else (scaled count dropped).map fun x => (realNumber positive x, s)

/-- A number after its sign. -/
def readUnsigned (positive : Bool) (s : Symbols) : Except Fault (Number × Symbols) :=
  match s with
  | [] => .error .endInValue
  | some '0' :: rest =>
      match rest with
      | d :: _ => if isDigit d then .error .invalidNumber else readTail positive 0 0 rest
      | [] => readTail positive 0 0 rest
  | d :: _ =>
      if isDigit d then
        let (digits, rest) := spanDigits s
        let (count, left) := gather 0 digits
        readTail positive count left.length rest
      else .error .invalidNumber

/-- A number, of which the first symbol is a sign or a digit. -/
def readNumber : Reader Number
  | some '-' :: rest => readUnsigned false rest
  | s => readUnsigned true s

end TimingReport.Json
