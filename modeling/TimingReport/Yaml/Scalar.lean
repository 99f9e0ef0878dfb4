import TimingReport.Decimal.Nearest
import TimingReport.Found

/-!
# The meaning of plain texts

A plain text may stand for nothing, a truth value or a number; else it stands for itself.
-/

namespace TimingReport.Yaml.Scalar

/-- The text stands for nothing. -/
def isNull (text : String) : Bool := ["null", "Null", "NULL", "~"].contains text

/-- The truth value that a text stands for. -/
def boolean? (text : String) : Option Bool :=
  if ["true", "True", "TRUE"].contains text then some true
  else if ["false", "False", "FALSE"].contains text then some false
  else none

/-- The value of a digit, up to base sixteen. -/
def digit? (c : Char) : Option Nat :=
  if '0' ≤ c ∧ c ≤ '9' then some (c.toNat - '0'.toNat)
  else if 'a' ≤ c ∧ c ≤ 'f' then some (c.toNat - 'a'.toNat + 10)
  else if 'A' ≤ c ∧ c ≤ 'F' then some (c.toNat - 'A'.toNat + 10)
  else none

/-- The number that digits to a base write. -/
def natural? (base : Nat) (digits : List Char) : Option Nat :=
  if digits.isEmpty then none
  else
    digits.foldlM
      (fun n c => (digit? c).bind fun d => if d < base then some (n * base + d) else none) 0

/-- The base that a text names, and the digits behind its name. -/
def baseOf : List Char → Option (Nat × List Char)
  | '0' :: 'x' :: rest => some (16, rest)
  | '0' :: 'o' :: rest => some (8, rest)
  | '0' :: 'b' :: rest => some (2, rest)
  | _ => none

/-- Without its sign, the text is a zero and then digits only, which is no number. -/
def isPadded (text : List Char) : Bool :=
  let digits := match text with
    | '+' :: rest => rest
    | '-' :: rest => rest
    | s => s
  match digits with
  | '0' :: rest => !rest.isEmpty && rest.all Char.isDigit
  | _ => false

/-- The magnitude that a text without a sign writes. -/
def magnitude? (text : List Char) : Option Nat :=
  match (baseOf text).bind fun (base, digits) => natural? base digits with
  | some n => some n
  | none => if isPadded text then none else natural? 10 text

/-- The integer that a text stands for. -/
def integer? : List Char → Option Int
  | '-' :: rest => (magnitude? rest).map fun n => -(n : Int)
  | '+' :: rest => (magnitude? rest).map fun n => (n : Int)
  | s => (magnitude? s).map fun n => (n : Int)

/-- An integer is described by how wide it is; one of more than 128 bits is none. -/
def integer (n : Int) : Option Found :=
  if -0x8000_0000_0000_0000 ≤ n ∧ n ≤ 0xFFFF_FFFF_FFFF_FFFF then some (.integer n)
  else if -(Int.pow 2 127) ≤ n ∧ n < Int.pow 2 128 then some (.wide n)
  else none

/-- The exponent that a text ends with. -/
def exponent? : List Char → Option Int
  | [] => some 0
  | c :: rest =>
      if c = 'e' ∨ c = 'E' then
        match rest with
        | '-' :: digits => (natural? 10 digits).map fun n => -(n : Int)
        | '+' :: digits => (natural? 10 digits).map fun n => (n : Int)
        | digits => (natural? 10 digits).map fun n => (n : Int)
      else none

/-- The finite number that a decimal without a sign writes. Digits may be missing on one
side of the point. -/
def decimal? (negative : Bool) (text : List Char) : Option Binary64 := do
  let whole := text.takeWhile Char.isDigit
  let (places, rest) := match text.dropWhile Char.isDigit with
    | '.' :: rest => (rest.takeWhile Char.isDigit, rest.dropWhile Char.isDigit)
    | rest => ([], rest)
  if whole.isEmpty && places.isEmpty then none
  else
    let power ← exponent? rest
    let x := Decimal.nearest negative (Decimal.count (whole ++ places)) (power - places.length)
    if x.isInfinite then none else return x

/-- The real number that a text stands for. -/
def real? (text : List Char) : Option Binary64 :=
  let isInfinity (s : List Char) : Bool := [".inf", ".Inf", ".INF"].contains (String.ofList s)
  if [".nan", ".NaN", ".NAN"].contains (String.ofList text) then some .nan
  else
    match text with
    | '-' :: rest => if isInfinity rest then some (.infinite true) else decimal? true rest
    | '+' :: rest => if isInfinity rest then some (.infinite false) else decimal? false rest
    | s => if isInfinity s then some (.infinite false) else decimal? false s

/-- What a number is, if the text is one. -/
def integerFound (text : String) : Option Found := integer? text.toList >>= integer

/-- What a plain text stands for. -/
def plain (text : String) : Found :=
  if text.isEmpty || isNull text then .nothing
  else
    match boolean? text with
    | some b => .boolean b
    | none =>
        match integerFound text with
        | some found => found
        | none =>
            if isPadded text.toList then .text text
            else
              match real? text.toList with
              | some x => .real x
              | none => .text text

/-! ## Tags -/

/-- What the tags of the language start with. -/
def coreTag (name : String) : String := "tag:yaml.org,2002:" ++ name

/-- The name that a tag of the document's own gives. -/
def localName? (tag : String) : Option String :=
  match tag.toList with
  | '!' :: [] => some tag
  | '!' :: name => some (String.ofList name)
  | _ => none

/-- What a text with a tag stands for, or nothing if the text does not fit its tag. -/
def found? (tag : Option String) (text : String) (isPlain : Bool) : Option Found :=
  let free := if isPlain then plain text else .text text
  match tag with
  | none => some free
  | some tag =>
      if tag = coreTag "bool" then (boolean? text).map .boolean
      else if tag = coreTag "int" then integerFound text
      else if tag = coreTag "float" then (real? text.toList).map .real
      else if tag = coreTag "null" then if isNull text then some .nothing else none
      else if (localName? tag).isSome then some free
      else some (.text text)

end TimingReport.Yaml.Scalar
