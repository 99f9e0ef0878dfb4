import TimingReport.Json.Symbols

/-!
# Values that are not needed

A value that nothing is read from is passed over one symbol at a time. The state says
what may come next and a stack holds the lists and objects that are open, so there is no
limit on their depth. Only the form of the value is checked: neither the text of its
strings nor the range of its numbers.
-/

namespace TimingReport.Json.Skip

/-- An open list or object. -/
inductive Frame where
  | list
  | object
deriving DecidableEq

/-- What may come next. -/
inductive State where
  | value
  /-- Just inside the innermost bracket. -/
  | opened
  | key
  | colon
  /-- A value inside the innermost bracket has ended. -/
  | ended
  | string (isKey : Bool)
  | escape (isKey : Bool)
  | hex (isKey : Bool) (missing : Nat)
  /-- The characters of a literal that are still to come. -/
  | literal (rest : List Char)
  | minus
  | zero
  | whole
  | point
  | fraction
  | exponent
  | exponentSign
  | exponentDigits

/-- What one symbol leads to. -/
inductive Step where
  | next (state : State) (stack : List Frame)
  /-- The symbol is the last one of the value. -/
  | last
  /-- The value ended before the symbol. -/
  | before
  | fault (fault : Fault)

/-- The fault of a document that ends inside a bracket. -/
def Frame.endFault : Frame → Fault
  | list => .endInList
  | object => .endInObject

/-- The fault of a symbol that neither goes on with a bracket nor closes it. -/
def Frame.separatorFault : Frame → Fault
  | list => .expectedListSeparator
  | object => .expectedObjectSeparator

/-- The symbol that closes a bracket. -/
def Frame.closer : Frame → Option Char
  | list => some ']'
  | object => some '\x7d'

/-- What follows a comma in a bracket. -/
def Frame.afterComma : Frame → State
  | list => .value
  | object => .key

/-- What follows the end of a value inside the given brackets. -/
def close : List Frame → Step
  | [] => .last
  | stack => .next .ended stack

/-- The start of a value. -/
def startValue (stack : List Frame) (s : Option Char) : Step :=
  if isBlank s then .next .value stack
  else if isDigit s then .next (if s = some '0' then .zero else .whole) stack
  else
    match s with
    | some 'n' => .next (.literal ['u', 'l', 'l']) stack
    | some 't' => .next (.literal ['r', 'u', 'e']) stack
    | some 'f' => .next (.literal ['a', 'l', 's', 'e']) stack
    | some '-' => .next .minus stack
    | some '"' => .next (.string false) stack
    | some '[' => .next .opened (.list :: stack)
    | some '\x7b' => .next .opened (.object :: stack)
    | _ => .fault .expectedValue

/-- The start of a key. -/
def startKey (stack : List Frame) (s : Option Char) : Step :=
  if isBlank s then .next .key stack
  else if s = some '"' then .next (.string true) stack
  else .fault .keyNoString

/-- What comes after a value. -/
def afterValue (stack : List Frame) (s : Option Char) : Step :=
  match stack with
  | [] => .before
  | frame :: outer =>
      if isBlank s then .next .ended stack
      else if s = some ',' then .next frame.afterComma stack
      else if s = frame.closer then close outer
      else .fault frame.separatorFault

/-- What comes after the digits of a number that may have an exponent. -/
def afterDigits (stack : List Frame) (s : Option Char) : Step :=
  if s = some 'e' ∨ s = some 'E' then .next .exponent stack else afterValue stack s

/-- What comes after the whole part of a number. -/
def afterWhole (stack : List Frame) (s : Option Char) : Step :=
  if s = some '.' then .next .point stack else afterDigits stack s

variable [Medium]

/-- What the symbol `s` leads to, which is followed by `rest`. -/
def step (state : State) (stack : List Frame) (s : Option Char) (rest : Symbols) : Step :=
  match state with
  | .value => startValue stack s
  | .opened =>
      match stack with
      | [] => .before
      | frame :: outer =>
          if isBlank s then .next .opened stack
          else if s = frame.closer then close outer
          else
            match frame with
            | .list => startValue stack s
            | .object => startKey stack s
  | .key => startKey stack s
  | .colon =>
      if isBlank s then .next .colon stack
      else if s = some ':' then .next .value stack
      else .fault .expectedColon
  | .ended => afterValue stack s
  | .string isKey =>
      if s = some '"' then (if isKey then .next .colon stack else close stack)
      else if s = some '\\' then .next (.escape isKey) stack
      else if isControl s then .fault .controlCharacter
      else .next (.string isKey) stack
  | .escape isKey =>
      if s = some 'u' then .next (.hex isKey 4) stack
      else if [some '"', some '\\', some '/', some 'b', some 'f', some 'n', some 'r',
        some 't'].contains s then .next (.string isKey) stack
      else .fault .invalidEscape
  | .hex isKey missing =>
      if (hexValue? s).isSome then
        .next (if missing ≤ 1 then .string isKey else .hex isKey (missing - 1)) stack
      else .fault (hexFault missing (s :: rest))
  | .literal [] => afterValue stack s
  | .literal [c] => if s = some c then close stack else .fault .expectedLiteral
  | .literal (c :: more) =>
      if s = some c then .next (.literal more) stack else .fault .expectedLiteral
  | .minus =>
      if isDigit s then .next (if s = some '0' then .zero else .whole) stack
      else .fault .invalidNumber
  | .zero => if isDigit s then .fault .invalidNumber else afterWhole stack s
  | .whole => if isDigit s then .next .whole stack else afterWhole stack s
  | .point => if isDigit s then .next .fraction stack else .fault .invalidNumber
  | .fraction => if isDigit s then .next .fraction stack else afterDigits stack s
  | .exponent =>
      if s = some '+' ∨ s = some '-' then .next .exponentSign stack
      else if isDigit s then .next .exponentDigits stack
      else .fault .invalidNumber
  | .exponentSign =>
      if isDigit s then .next .exponentDigits stack else .fault .invalidNumber
  | .exponentDigits => if isDigit s then .next .exponentDigits stack else afterValue stack s

/-- The end of the document where a value may have ended. -/
def endOfValue : List Frame → Except Fault Symbols
  | [] => .ok []
  | frame :: _ => .error frame.endFault

/-- The end of the document. -/
def atEnd (state : State) (stack : List Frame) : Except Fault Symbols :=
  match state with
  | .value => .error .endInValue
  | .opened => endOfValue stack
  | .key => .error .endInObject
  | .colon => .error .endInObject
  | .ended => endOfValue stack
  | .string _ => .error .endInString
  | .escape _ => .error .endInString
  | .hex _ _ => .error .endInString
  | .literal _ => .error .endInValue
  | .minus => .error .invalidNumber
  | .zero => endOfValue stack
  | .whole => endOfValue stack
  | .point => .error .invalidNumber
  | .fraction => endOfValue stack
  | .exponent => .error .invalidNumber
  | .exponentSign => .error .invalidNumber
  | .exponentDigits => endOfValue stack

/-- What is left after the value. -/
def run : State → List Frame → Symbols → Except Fault Symbols
  | state, stack, [] => atEnd state stack
  | state, stack, s :: rest =>
      match step state stack s rest with
      | .next state stack => run state stack rest
      | .last => .ok rest
      | .before => .ok (s :: rest)
      | .fault fault => .error fault

/-- What is left after one value of any kind. -/
def value (s : Symbols) : Except Fault Symbols := run .value [] s

end TimingReport.Json.Skip
