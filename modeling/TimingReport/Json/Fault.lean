import TimingReport.Found

/-!
# Faults of JSON documents

A document is read once from the left, and the first fault ends the reading: either the
text is no JSON, or a value is not of the shape that is wanted at its place.
-/

namespace TimingReport.Json

/-- The words of JSON. -/
def wording : Found.Wording where
  nothing := "null"
  real := Decimal.compact

/-- Why a document cannot be read. -/
inductive Fault where
  | endInList
  | endInObject
  | endInString
  | endInValue
  | expectedColon
  | expectedListSeparator
  | expectedObjectSeparator
  | expectedLiteral
  | expectedValue
  | invalidEscape
  | invalidNumber
  | numberOutOfRange
  | invalidCharacter
  | controlCharacter
  | keyNoString
  | loneSurrogate
  | brokenSurrogatePair
  | trailingComma
  | trailingCharacters
  | missingField (name : String)
  | duplicateField (name : String)
  | wrongType (found : Found) (wanted : String)
  | outOfBounds (value : Int) (wanted : String)
  | wrongLength (length : Nat) (wanted : String)

/-- The wording of a fault. -/
def Fault.message : Fault → String
  | endInList => "EOF while parsing a list"
  | endInObject => "EOF while parsing an object"
  | endInString => "EOF while parsing a string"
  | endInValue => "EOF while parsing a value"
  | expectedColon => "expected `:`"
  | expectedListSeparator => "expected `,` or `]`"
  | expectedObjectSeparator => "expected `,` or `\x7d`"
  | expectedLiteral => "expected ident"
  | expectedValue => "expected value"
  | invalidEscape => "invalid escape"
  | invalidNumber => "invalid number"
  | numberOutOfRange => "number out of range"
  | invalidCharacter => "invalid unicode code point"
  | controlCharacter => "control character (\\u0000-\\u001F) found while parsing a string"
  | keyNoString => "key must be a string"
  | loneSurrogate => "lone leading surrogate in hex escape"
  | brokenSurrogatePair => "unexpected end of hex escape"
  | trailingComma => "trailing comma"
  | trailingCharacters => "trailing characters"
  | missingField name => TimingReport.missingField name
  | duplicateField name => TimingReport.duplicateField name
  | wrongType found wanted => found.complaint wording wanted
  | outOfBounds value wanted =>
      "invalid value: integer `" ++ toString value ++ "`, expected " ++ wanted
  | wrongLength length wanted =>
      "invalid length " ++ toString length ++ ", expected " ++ wanted

end TimingReport.Json
