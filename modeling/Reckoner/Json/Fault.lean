import Reckoner.Json.Text
import Reckoner.Text.Quoted

/-!
# Json — what can be wrong with a value or its text

A `Json.Objection` is a fault of a text and comes with a place; a `Json.Mismatch` is a fault of a
value that was to be of a certain form.
-/

namespace Reckoner.Json

/-- What can be wrong with a text that is to be JSON. -/
inductive Objection where
  | endInList
  | endInObject
  | endInString
  | endInValue
  | expectedColon
  | expectedListEnd
  | expectedObjectEnd
  | expectedWord
  | expectedValue
  | invalidEscape
  | invalidNumber
  | numberOutOfRange
  | controlCharacter
  | keyNotString
  | loneSurrogate
  | trailingComma
  | trailingCharacters
  | endOfHexEscape
  | nestedTooDeeply
  deriving DecidableEq, Repr

/-- The wording of an objection. -/
def Objection.message : Objection → String
  | endInList          => "EOF while parsing a list"
  | endInObject        => "EOF while parsing an object"
  | endInString        => "EOF while parsing a string"
  | endInValue         => "EOF while parsing a value"
  | expectedColon      => "expected `:`"
  | expectedListEnd    => "expected `,` or `]`"
  | expectedObjectEnd  => "expected `,` or `\x7d`"
  | expectedWord       => "expected ident"
  | expectedValue      => "expected value"
  | invalidEscape      => "invalid escape"
  | invalidNumber      => "invalid number"
  | numberOutOfRange   => "number out of range"
  | controlCharacter   => "control character (\\u0000-\\u001F) found while parsing a string"
  | keyNotString       => "key must be a string"
  | loneSurrogate      => "lone leading surrogate in hex escape"
  | trailingComma      => "trailing comma"
  | trailingCharacters => "trailing characters"
  | endOfHexEscape     => "unexpected end of hex escape"
  | nestedTooDeeply    => "recursion limit exceeded"

/-- A value as it is named where it was not expected. -/
def found : Json → String
  | null => "null"
  | bool true => "boolean `true`"
  | bool false => "boolean `false`"
  | number (.real x) => "floating point `" ++ (JsonNumber.real x).text ++ "`"
  | number n => "integer `" ++ n.text ++ "`"
  | string s => "string " ++ Text.quoted s
  | array _ => "sequence"
  | object _ => "map"

/-- How a value fails to be of a form. -/
inductive Mismatch where
  /-- a value of another kind -/
  | wrongKind (value : Json) (expected : String)
  /-- an object without a member -/
  | missing (name : String)
  /-- a list with too few items -/
  | tooShort (length : Nat) (expected : String)
  /-- a list with too many items -/
  | tooLong (length : Nat)

/-- The wording of a mismatch. -/
def Mismatch.message : Mismatch → String
  | wrongKind value expected => "invalid type: " ++ value.found ++ ", expected " ++ expected
  | missing name => "missing field `" ++ name ++ "`"
  | tooShort length expected => "invalid length " ++ toString length ++ ", expected " ++ expected
  | tooLong length =>
    "invalid length " ++ toString length ++ ", expected fewer elements in array"

/-- What can be wrong with JSON input: its text, at a line and a column, or its value. -/
inductive Fault where
  | text (objection : Objection) (line column : Nat)
  | value (mismatch : Mismatch)

/-- The wording of a fault. -/
def Fault.message : Fault → String
  | text objection line column =>
    objection.message ++ " at line " ++ toString line ++ " column " ++ toString column
  | value mismatch => mismatch.message

end Reckoner.Json
