import ConditionChart.Decimal.Layout
import ConditionChart.Text.Quoted

/-!
# JSON errors

Reading stops at the first problem from left to right. A problem is either one of the text, or a
value that is not what its place asks for. Where in the text it was met is not kept.
-/

namespace ConditionChart.Json

/-- What was being read when the text ended. -/
inductive Unfinished
  | value
  | string
  | list
  | object
deriving DecidableEq, Repr

/-- What stands where something else was wanted. A real number is given by its 64 bits. -/
inductive Found
  | null
  | flag (b : Bool)
  | integer (n : Int)
  | real (bits : UInt64)
  | string (s : String)
  | list
  | object
deriving DecidableEq, Repr

/-- Why a text could not be read. -/
inductive Error
  | endOfText (during : Unfinished)
  | expectedWord
  | expectedValue
  | invalidNumber
  | numberOutOfRange
  | controlCharacter
  | invalidEscape
  | brokenSurrogatePair
  | loneSurrogate
  | expectedListEnd
  | expectedObjectEnd
  | expectedColon
  | keyNotString
  | trailingComma
  | trailingCharacters
  | nestedTooDeep
  | invalidType (found : Found) (wanted : String)
  | invalidInteger (n : Int) (wanted : String)
  | duplicateField (name : String)
  | missingField (name : String)
  /-- A list that ends before a required field of a record. -/
  | tooShort (length : Nat) (record : String) (size : Nat)
deriving DecidableEq, Repr

/-- The place at which the text ended, in words. -/
def Unfinished.text : Unfinished → String
  | value => "a value"
  | string => "a string"
  | list => "a list"
  | object => "an object"

/-- What was found, in words. -/
def Found.text : Found → String
  | null => "null"
  | flag b => "boolean `" ++ (if b then "true" else "false") ++ "`"
  | integer n => "integer `" ++ toString n ++ "`"
  | real bits => "floating point `" ++ Decimal.jsonDouble.text Decimal.double bits.toNat ++ "`"
  | string s => "string " ++ Text.quoted s
  | list => "sequence"
  | object => "map"

/-- The wording of an error. It says what is wrong and not where: a message in full also has the
line and the column at which reading stopped behind the wording, and these are left out here. -/
def Error.message : Error → String
  | endOfText during => "EOF while parsing " ++ during.text
  | expectedWord => "expected ident"
  | expectedValue => "expected value"
  | invalidNumber => "invalid number"
  | numberOutOfRange => "number out of range"
  | controlCharacter =>
      "control character (\\u0000-\\u001F) found while parsing a string"
  | invalidEscape => "invalid escape"
  | brokenSurrogatePair => "unexpected end of hex escape"
  | loneSurrogate => "lone leading surrogate in hex escape"
  | expectedListEnd => "expected `,` or `]`"
  | expectedObjectEnd => "expected `,` or `\x7d`"
  | expectedColon => "expected `:`"
  | keyNotString => "key must be a string"
  | trailingComma => "trailing comma"
  | trailingCharacters => "trailing characters"
  | nestedTooDeep => "recursion limit exceeded"
  | invalidType found wanted => "invalid type: " ++ found.text ++ ", expected " ++ wanted
  | invalidInteger n wanted =>
      "invalid value: integer `" ++ toString n ++ "`, expected " ++ wanted
  | duplicateField name => "duplicate field `" ++ name ++ "`"
  | missingField name => "missing field `" ++ name ++ "`"
  | tooShort length record size =>
      "invalid length " ++ toString length ++ ", expected struct " ++ record ++ " with " ++
        toString size ++ " elements"

end ConditionChart.Json
