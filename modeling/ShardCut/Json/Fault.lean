import ShardCut.Json.Number
import ShardCut.Text.Quoted

/-!
What can be wrong with a JSON text. A text is read as a stream and the first fault in reading order
is the one that is reported, without its position. `Fault.message` is the only place where faults
get their wording.

Main definitions: `Fault`, `Fault.message`.
-/

namespace ShardCut.Json

/-- What stood in the text: scalars with their content, arrays and objects without. -/
inductive Found where
  | null
  | bool (value : Bool)
  | number (value : Number)
  | string (value : String)
  | array
  | object
deriving DecidableEq, Repr

/-- What the text should have held in that place. -/
inductive Expected where
  | list
  | count
  | pair
  | matrix
deriving DecidableEq, Repr

/-- The fields of a written matrix. -/
inductive Field where
  | data
  | shape
deriving DecidableEq, Repr

/-- The faults of a JSON text. -/
inductive Fault where
  | endInValue
  | endInList
  | endInObject
  | endInString
  | expectedValue
  | expectedWord
  | expectedColon
  | expectedListEnd
  | expectedObjectEnd
  | expectedKey
  | trailingComma
  | trailingCharacters
  | invalidNumber
  | numberOutOfRange
  | controlCharacter
  | invalidEscape
  | loneSurrogate
  | unfinishedSurrogatePair
  | tooDeep
  | wrongType (found : Found) (expected : Expected)
  | negativeCount (value : Int)
  | notAName
  | missingField (field : Field)
  | repeatedField (field : Field)
  | tooShort (length : Nat) (expected : Expected)
deriving DecidableEq, Repr

namespace Found

/-- How a found value is named in a message. -/
def describe : Found → String
  | .null => "null"
  | .bool value => "boolean `" ++ (if value then "true" else "false") ++ "`"
  | .number (.integer value) => "integer `" ++ toString value ++ "`"
  | .number (.decimal negative magnitude) =>
    "floating point `" ++ renderFloat negative magnitude ++ "`"
  | .string value => "string " ++ Text.debugQuoted value
  | .array => "sequence"
  | .object => "map"

end Found

namespace Expected

/-- How an expectation is named when something else stood there. -/
def describe : Expected → String
  | .list => "a sequence"
  | .count => "usize"
  | .pair => "an array of length 2"
  | .matrix => "struct ResultMatrix"

/-- How an expectation is named when there were too few elements. -/
def describeLength : Expected → String
  | .matrix => "struct ResultMatrix with 2 elements"
  | expected => expected.describe

end Expected

namespace Field

def key : Field → String
  | .data => "data"
  | .shape => "shape"

end Field

namespace Fault

def message : Fault → String
  | endInValue => "EOF while parsing a value"
  | endInList => "EOF while parsing a list"
  | endInObject => "EOF while parsing an object"
  | endInString => "EOF while parsing a string"
  | expectedValue => "expected value"
  | expectedWord => "expected ident"
  | expectedColon => "expected `:`"
  | expectedListEnd => "expected `,` or `]`"
  | expectedObjectEnd => "expected `,` or `\x7d`"
  | expectedKey => "key must be a string"
  | trailingComma => "trailing comma"
  | trailingCharacters => "trailing characters"
  | invalidNumber => "invalid number"
  | numberOutOfRange => "number out of range"
  | controlCharacter => "control character (\\u0000-\\u001F) found while parsing a string"
  | invalidEscape => "invalid escape"
  | loneSurrogate => "lone leading surrogate in hex escape"
  | unfinishedSurrogatePair => "unexpected end of hex escape"
  | tooDeep => "recursion limit exceeded"
  | wrongType found expected =>
    "invalid type: " ++ found.describe ++ ", expected " ++ expected.describe
  | negativeCount value => "invalid value: integer `" ++ toString value ++ "`, expected usize"
  | notAName => "data did not match any variant of untagged enum Oid"
  | missingField field => "missing field `" ++ field.key ++ "`"
  | repeatedField field => "duplicate field `" ++ field.key ++ "`"
  | tooShort length expected =>
    "invalid length " ++ toString length ++ ", expected " ++ expected.describeLength

end Fault

end ShardCut.Json
