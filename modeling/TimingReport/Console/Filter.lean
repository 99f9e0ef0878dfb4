import TimingReport.Console.Level
import TimingReport.Decimal.Nearest
import TimingReport.Text.Alphanumeric
import TimingReport.Text.Blank

/-!
# Filters of messages

A filter is a list of directives divided by commas. A directive names a threshold for the
messages of an origin, and the most specific one that fits a message decides about it.
-/

namespace TimingReport.Console

/-- The number that a text writes, with or without a plus sign. -/
def numberOf? (text : String) : Option Nat :=
  let digits := match text.toList with
    | '+' :: digits => digits
    | digits => digits
  if !digits.isEmpty && digits.all Char.isDigit then some (Decimal.count digits) else none

/-- The threshold that a text names, by its place or by its word in any case. -/
def Threshold.ofText? (text : String) : Option Threshold :=
  match numberOf? text with
  | some n => Threshold.all[n]?
  | none => Threshold.all.find? fun threshold => threshold.word == text.map Char.toLower

/-- A condition on the fields of a message or of what it happens in. -/
structure FieldCondition where
  name : String
  /-- The field must also have a certain value. -/
  hasValue : Bool

/-- A directive of a filter. -/
structure Directive where
  /-- What the origin of a message must start with. -/
  target : Option String := none
  /-- What a message must happen in. -/
  scope : Option String := none
  fields : List FieldCondition := []
  threshold : Threshold := .upTo .trace

/-- Why a directive is ignored. -/
inductive DirectiveFault where
  | malformed
  | badThreshold
deriving DecidableEq

/-- The wording of a fault of a directive. -/
def DirectiveFault.message : DirectiveFault → String
  | malformed => "invalid filter directive"
  | badThreshold =>
      "error parsing level filter: expected one of "
        ++ ", ".intercalate (Threshold.all.map fun threshold => "\"" ++ threshold.word ++ "\"")
        ++ ", or a number 0-5"

namespace Directive

/-- The part of a directive that is open, with the place where it starts. -/
inductive Part where
  | start
  /-- A threshold or an origin. -/
  | word (start : Nat)
  | scope (start : Nat)
  | field (start : Nat)
  | fieldsEnd
  | scopeEnd
  | threshold (start : Nat)

/-- A character that a threshold or an origin may start with. -/
def startsWord (c : Char) : Bool :=
  c == '-' || c == ':' || c == '_' || Text.isAlphanumeric c

/-- The characters from one place to another. -/
def cut (text : List Char) (start stop : Nat) : String :=
  String.ofList ((text.take stop).drop start)

/-- The condition that a text states. -/
def condition (text : String) : FieldCondition where
  name := String.ofList (text.toList.takeWhile (· ≠ '='))
  hasValue := text.toList.contains '='

/-- The threshold of a text, where none means that all is let through. -/
def thresholdOf (text : String) : Except DirectiveFault Threshold :=
  if text.isEmpty then .ok (.upTo .trace)
  else
    match Threshold.ofText? text with
    | some threshold => .ok threshold
    | none => .error .badThreshold

/-- The directive after a character at a place, and the part that is open then. -/
def step (text : List Char) (d : Directive) (part : Part) (place : Nat) (c : Char) :
    Except DirectiveFault (Directive × Part) :=
  match part with
  | .start =>
      if c = '[' then .ok (d, .scope (place + 1))
      else if startsWord c then .ok (d, .word place)
      else .error .malformed
  | .word start =>
      if c = '=' then .ok ({ d with target := some (cut text start place) }, .threshold (place + 1))
      else if c = '[' then
        .ok ({ d with target := some (cut text start place) }, .scope (place + 1))
      else .ok (d, .word start)
  | .scope start =>
      let scope := cut text start place
      if c = ']' then .ok ({ d with scope := some scope }, .scopeEnd)
      else if c = '\x7b' then
        .ok ({ d with scope := if scope.isEmpty then none else some scope }, .field (place + 1))
      else .ok (d, .scope start)
  | .field start =>
      if c = '\x7d' then
        let field := cut text start place
        if field.isEmpty then .error .malformed
        else .ok ({ d with fields := d.fields ++ [condition field] }, .fieldsEnd)
      else .ok (d, .field start)
  | .fieldsEnd => if c = ']' then .ok (d, .scopeEnd) else .error .malformed
  | .scopeEnd => if c = '=' then .ok (d, .threshold (place + 1)) else .error .malformed
  | .threshold start => .ok (d, .threshold start)

/-- The directive whose last part ends with the text. -/
def finish (text : List Char) (d : Directive) (part : Part) : Except DirectiveFault Directive :=
  match part with
  | .word start =>
      let word := cut text start text.length
      match Threshold.ofText? word with
      | some threshold => .ok { d with threshold }
      | none => .ok { d with target := some word }
  | .threshold start =>
      (thresholdOf (cut text start text.length)).map fun threshold => { d with threshold }
  | .scopeEnd => .ok d
  | _ => .error .malformed

/-- The directive of the characters that are left from a place on. -/
def read (text : List Char) (d : Directive) (part : Part) (place : Nat) :
    List Char → Except DirectiveFault Directive
  | [] => finish text d part
  | c :: rest =>
      match step text d part place c with
      | .error fault => .error fault
      | .ok (d, part) => read text d part (place + 1) rest

/-- The directive of a text. Its characters are taken without the blanks around it, but its
parts are cut from the text with them, so that blanks in front shift the parts. -/
def ofText (text : String) : Except DirectiveFault Directive :=
  let trimmed := text.toList.dropWhile Text.isBlank
  let trimmed := (trimmed.reverse.dropWhile Text.isBlank).reverse
  read text.toList {} .start 0 trimmed

/-- The directive concerns messages by themselves, whatever they happen in. -/
def isGeneral (d : Directive) : Bool := d.scope.isNone && d.fields.all fun field => !field.hasValue

/-- The names of the fields that a message must have. -/
def fieldNames (d : Directive) : List String := d.fields.map FieldCondition.name

/-- The directive fits messages of an origin with the given fields. -/
def fits (d : Directive) (origin : String) (fields : List String) : Bool :=
  (match d.target with
    | some target => target.isPrefixOf origin
    | none => true)
    && d.fieldNames.all fields.contains

/-- The length of the origin that a directive asks for. -/
def targetLength (d : Directive) : Nat :=
  match d.target with
  | some target => target.utf8ByteSize + 1
  | none => 0

/-- The first directive is at least as specific as the second: its origin is longer, or it
names more fields, or later ones in the alphabet. -/
def isAsSpecific (d e : Directive) : Bool :=
  if d.targetLength ≠ e.targetLength then e.targetLength < d.targetLength
  else if d.fields.length ≠ e.fields.length then e.fields.length < d.fields.length
  else !decide (d.fieldNames < e.fieldNames)

end Directive

/-- A filter: its directives in the order in which they were given. -/
structure Filter where
  directives : List Directive

namespace Filter

/-- The directive that decides about a message, if any fits it. Of two that are alike, the
later one counts. -/
def decisive? (filter : Filter) (origin : String) (fields : List String) : Option Directive :=
  (filter.directives.filter fun d => d.isGeneral && d.fits origin fields).foldl
    (fun best d =>
      match best with
      | some e => if d.isAsSpecific e then some d else some e
      | none => some d)
    none

/-- The filter lets a message through. -/
def admits (filter : Filter) (origin : String) (fields : List String) (level : Level) : Bool :=
  (filter.decisive? origin fields).any fun d => d.threshold.admits level

/-- The filter that lets through what is not more detailed than a threshold. -/
def upTo (threshold : Threshold) : Filter := ⟨[{ threshold }]⟩

/-- What is said about a directive that is ignored. -/
def complaint (text : String) (fault : DirectiveFault) : String :=
  "ignoring `" ++ text ++ "`: " ++ fault.message

/-- The directives of texts, and what is said about those that are ignored. -/
def readAll : List String → List Directive × List String
  | [] => ([], [])
  | text :: rest =>
      let (directives, complaints) := readAll rest
      match Directive.ofText text with
      | .ok d => (d :: directives, complaints)
      | .error fault => (directives, complaint text fault :: complaints)

/-- The filter of a text, and what is said about its directives. A text without any usable
directive lets through what is not more detailed than `info`. -/
def ofText (text : String) : Filter × List String :=
  let pieces := (text.splitOn ",").filter fun piece => !piece.isEmpty
  let (directives, complaints) := readAll pieces
  (if directives.isEmpty then upTo (.upTo .info) else ⟨directives⟩, complaints)

end Filter

end TimingReport.Console
