/-!
# Binary64 numbers

A timing is a binary64 number: a sign and 63 further bits. Read as a natural
number, those bits order the magnitudes: the finite ones come first, then
infinity, then the patterns that are not a number.

Every finite number is a whole count of the smallest positive number, `2 ^ -1074`.
Arithmetic is exact on those counts and rounds once, to the nearest number and to
the even pattern when two are equally near.
-/

namespace TimingReport

/-- The value of the bit that holds the sign. -/
def Binary64.signBit : Nat := 0x8000_0000_0000_0000

/-- A binary64 number: its sign and the remaining 63 bits read as a natural number. -/
structure Binary64 where
  negative : Bool
  magnitude : Nat
  magnitude_lt : magnitude < Binary64.signBit
deriving DecidableEq

namespace Binary64

/-- The magnitude pattern of infinity. -/
def infinity : Nat := 0x7FF0_0000_0000_0000

/-- How many of the smallest positive number make one. -/
def unit : Nat := Nat.pow 2 1074

/-! ## Patterns and counts -/

/-- The step between the patterns of a number and of its double, unless the number is too
small for that. -/
def octave : Nat := 0x10_0000_0000_0000

/-- The binary scale of a magnitude pattern: neighbours at scale `k` are `2 ^ k` units apart. -/
def scale (pattern : Nat) : Nat := pattern / octave - 1

/-- The units that a magnitude pattern stands for. -/
def unitsOf (pattern : Nat) : Nat :=
  (pattern - scale pattern * octave) * Nat.pow 2 (scale pattern)

/-- The quotient rounded to the nearest natural number, a half to the even one. -/
def roundHalfEven (num den : Nat) : Nat :=
  let quotient := num / den
  let rest := num % den
  if 2 * rest < den then quotient
  else if den < 2 * rest then quotient + 1
  else quotient + quotient % 2

/-- The magnitude pattern nearest to `num / den` units. -/
def nearest (num den : Nat) : Nat :=
  let k := (num / den).log2 - 52
  min (k * octave + roundHalfEven num (den * Nat.pow 2 k)) infinity

theorem nearest_lt (num den : Nat) : nearest num den < signBit :=
  Nat.lt_of_le_of_lt (Nat.min_le_right _ _) (by decide)

/-- The number of the given sign nearest to `num / den` units. -/
def ofUnits (negative : Bool) (num den : Nat) : Binary64 :=
  ⟨negative, nearest num den, nearest_lt num den⟩

/-! ## Kinds of numbers -/

/-- The pattern is not a number. -/
def isNaN (x : Binary64) : Bool := infinity < x.magnitude

def isInfinite (x : Binary64) : Bool := x.magnitude == infinity

def isFinite (x : Binary64) : Bool := x.magnitude < infinity

/-- A zero of the given sign. -/
def zero (negative : Bool) : Binary64 := ⟨negative, 0, by decide⟩

/-- The infinity of the given sign. -/
def infinite (negative : Bool) : Binary64 := ⟨negative, infinity, by decide⟩

/-- The pattern that operations without a value return. -/
def nan : Binary64 := ⟨false, 0x7FF8_0000_0000_0000, by decide⟩

/-- The units of the magnitude. -/
def units (x : Binary64) : Nat := unitsOf x.magnitude

/-- The units with the number's sign. -/
def signedUnits (x : Binary64) : Int := if x.negative then -(x.units : Int) else x.units

/-! ## Bits -/

/-- The number written by 64 bits, the sign first. -/
def ofBits (bits : UInt64) : Binary64 :=
  ⟨signBit ≤ bits.toNat, bits.toNat % signBit, Nat.mod_lt _ (by decide)⟩

def toBits (x : Binary64) : UInt64 :=
  UInt64.ofNat ((if x.negative then signBit else 0) + x.magnitude)

/-- The number nearest to a natural number. -/
def ofNat (n : Nat) : Binary64 := ofUnits false (n * unit) 1

/-! ## Arithmetic -/

def neg (x : Binary64) : Binary64 := { x with negative := !x.negative }

/-- The sum. Two zeros of different sign, and two opposite numbers, add up to the positive zero. -/
def add (x y : Binary64) : Binary64 :=
  if x.isNaN || y.isNaN then nan
  else if x.isInfinite then
    if y.isInfinite && x.negative != y.negative then nan else x
  else if y.isInfinite then y
  else
    let sum := x.signedUnits + y.signedUnits
    if sum = 0 then zero (x.negative && y.negative)
    else ofUnits (sum < 0) sum.natAbs 1

def mul (x y : Binary64) : Binary64 :=
  let negative := x.negative != y.negative
  if x.isNaN || y.isNaN then nan
  else if x.isInfinite || y.isInfinite then
    if x.magnitude == 0 || y.magnitude == 0 then nan else infinite negative
  else ofUnits negative (x.units * y.units) unit

def div (x y : Binary64) : Binary64 :=
  let negative := x.negative != y.negative
  if x.isNaN || y.isNaN then nan
  else if x.isInfinite then
    if y.isInfinite then nan else infinite negative
  else if y.isInfinite then zero negative
  else if y.magnitude == 0 then
    if x.magnitude == 0 then nan else infinite negative
  else ofUnits negative (x.units * unit) y.units

instance : Neg Binary64 := ⟨neg⟩
instance : Add Binary64 := ⟨add⟩
instance : Mul Binary64 := ⟨mul⟩
instance : Div Binary64 := ⟨div⟩

/-! ## Order -/

/-- The place of a number among all that are numbers; both zeros have the same place. -/
def place (x : Binary64) : Int := if x.negative then -(x.magnitude : Int) else x.magnitude

/-- Comparison as numbers: a pattern that is not a number is below nothing. -/
def lt (x y : Binary64) : Bool := !x.isNaN && !y.isNaN && x.place < y.place

/-- Comparison as numbers: a pattern that is not a number is not even at most itself. -/
def le (x y : Binary64) : Bool := !x.isNaN && !y.isNaN && x.place ≤ y.place

/-- The place of a pattern in the total order of all 64-bit patterns: negative patterns
first, the negative zero just before the positive one, patterns that are not a number at
both ends. -/
def totalPlace (x : Binary64) : Int :=
  if x.negative then -(x.magnitude : Int) - 1 else x.magnitude

/-- The total order of all patterns. -/
def totalLe (x y : Binary64) : Bool := x.totalPlace ≤ y.totalPlace

end Binary64

end TimingReport
