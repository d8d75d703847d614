import LogRelay.Decimal.Shortest
import LogRelay.Text.Quoted

/-!
Why a JSON text is rejected: because it ends too early, because it is not JSON, or because it is JSON
of another shape than the reader wants.
-/

namespace LogRelay.Json

/-- A value met where another kind was wanted. -/
inductive Found where
  | null
  | boolean (b : Bool)
  | integer (n : Int)
  | float (x : Decimal.Binary64)
  | text (s : String)
  | list
  | object
  deriving DecidableEq, Repr

def Found.describe : Found → String
  | null => "null"
  | boolean b => "boolean `" ++ (if b then "true" else "false") ++ "`"
  | integer n => "integer `" ++ toString n ++ "`"
  | float x => "floating point `" ++ x.renderMarked ++ "`"
  | text s => "string " ++ Text.Quoted.text s
  | list => "sequence"
  | object => "map"

inductive Error where
  | endInList | endInObject | endInText | endInValue
  | expectedColon | expectedListCommaOrEnd | expectedObjectCommaOrEnd
  | expectedWord | expectedValue
  | invalidEscape | invalidNumber | numberOutOfRange | invalidCodePoint | controlCharacter
  | keyNotText | loneSurrogate | endOfHexEscape
  | trailingComma | trailingCharacters | tooDeep
  | wrongKind (found : Found) (expected : String)
  | wrongValue (found : Found) (expected : String)
  | wrongLength (length : Nat) (expected : String)
  | unknownVariant (name : String) (expected : List String)
  | missingField (key : String)
  | duplicateField (key : String)
  deriving DecidableEq, Repr

/-- The three ways in which a text fails. -/
inductive Error.Category where
  /-- The text is not JSON. -/
  | format
  /-- The text is JSON but not of the wanted shape. -/
  | data
  /-- The text ends too early. -/
  | ending
  deriving DecidableEq, Repr

namespace Error

def category : Error → Category
  | endInList | endInObject | endInText | endInValue => .ending
  | wrongKind .. | wrongValue .. | wrongLength .. | unknownVariant .. | missingField _
  | duplicateField _ => .data
  | _ => .format

/-- A choice among names, in the words of a message. -/
def oneOf : List String → String
  | [] => "there are no variants"
  | [a] => "expected `" ++ a ++ "`"
  | [a, b] => "expected `" ++ a ++ "` or `" ++ b ++ "`"
  | names => "expected one of " ++ ", ".intercalate (names.map fun a => "`" ++ a ++ "`")

def message : Error → String
  | endInList => "EOF while parsing a list"
  | endInObject => "EOF while parsing an object"
  | endInText => "EOF while parsing a string"
  | endInValue => "EOF while parsing a value"
  | expectedColon => "expected `:`"
  | expectedListCommaOrEnd => "expected `,` or `]`"
  | expectedObjectCommaOrEnd => "expected `,` or `\x7d`"
  | expectedWord => "expected ident"
  | expectedValue => "expected value"
  | invalidEscape => "invalid escape"
  | invalidNumber => "invalid number"
  | numberOutOfRange => "number out of range"
  | invalidCodePoint => "invalid unicode code point"
  | controlCharacter => "control character (\\u0000-\\u001F) found while parsing a string"
  | keyNotText => "key must be a string"
  | loneSurrogate => "lone leading surrogate in hex escape"
  | endOfHexEscape => "unexpected end of hex escape"
  | trailingComma => "trailing comma"
  | trailingCharacters => "trailing characters"
  | tooDeep => "recursion limit exceeded"
  | wrongKind found expected => "invalid type: " ++ found.describe ++ ", expected " ++ expected
  | wrongValue found expected => "invalid value: " ++ found.describe ++ ", expected " ++ expected
  | wrongLength n expected => "invalid length " ++ toString n ++ ", expected " ++ expected
  | unknownVariant name expected => "unknown variant `" ++ name ++ "`, " ++ oneOf expected
  | missingField key => "missing field `" ++ key ++ "`"
  | duplicateField key => "duplicate field `" ++ key ++ "`"

end Error

end LogRelay.Json
