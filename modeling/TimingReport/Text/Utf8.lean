/-!
# UTF-8

Bytes are read as a list of symbols: a character for every well-formed sequence, and
`none` for every byte that belongs to no such sequence. Reading never fails, so a
reader of the symbols decides where a character is needed.
-/

namespace TimingReport.Text.Utf8

/-- The bytes of a text. -/
def encode (text : String) : List UInt8 := text.toList.flatMap String.utf8EncodeChar

/-- A byte that continues a sequence. -/
def isContinuation (b : UInt8) : Bool := 0x80 ≤ b && b < 0xC0

/-- The code point of a lead's bits followed by continuation bytes. -/
def combine (lead : Nat) (continuations : List UInt8) : Nat :=
  continuations.foldl (fun code b => code * 64 + b.toNat % 64) lead

/-- The character of a sequence whose lead carries `bits` and is continued by `count`
bytes, if its code point needs that many bytes and is no surrogate. -/
def sequence? (bits count least : Nat) (rest : List UInt8) : Option (Char × Nat) :=
  let continuations := rest.take count
  if continuations.length = count && continuations.all isContinuation then
    let code := combine bits continuations
    if least ≤ code then
      if h : code.isValidChar then some (Char.ofNatAux code h, count) else none
    else none
  else none

/-- The character at the front of the bytes, and how many bytes continue it. -/
def front? : List UInt8 → Option (Char × Nat)
  | [] => none
  | lead :: rest =>
      if lead < 0x80 then some (Char.ofNat lead.toNat, 0)
      else if 0xC0 ≤ lead && lead < 0xE0 then sequence? (lead.toNat % 32) 1 0x80 rest
      else if 0xE0 ≤ lead && lead < 0xF0 then sequence? (lead.toNat % 16) 2 0x800 rest
      else if 0xF0 ≤ lead && lead < 0xF8 then sequence? (lead.toNat % 8) 3 0x10000 rest
      else none

/-- The symbols of bytes after those already read, which are given in reverse. The first
`skip` bytes belong to the last character read. -/
def symbolsFrom (read : List (Option Char)) : Nat → List UInt8 → List (Option Char)
  | _, [] => read.reverse
  | skip + 1, _ :: rest => symbolsFrom read skip rest
  | 0, byte :: rest =>
      match front? (byte :: rest) with
      | some (c, count) => symbolsFrom (some c :: read) count rest
      | none => symbolsFrom (none :: read) 0 rest

/-- The symbols of bytes. -/
def symbols (bytes : List UInt8) : List (Option Char) := symbolsFrom [] 0 bytes

/-- The characters of symbols that are all well formed. -/
def characters? (symbols : List (Option Char)) : Option (List Char) :=
  if symbols.all Option.isSome then some (symbols.filterMap id) else none

/-- The text of well-formed bytes. -/
def decode? (bytes : List UInt8) : Option String :=
  (characters? (symbols bytes)).map String.ofList

/-- The number of bytes that symbols stand for. -/
def width (symbols : List (Option Char)) : Nat :=
  symbols.foldl (fun total s => total + (s.map Char.utf8Size).getD 1) 0

end TimingReport.Text.Utf8
