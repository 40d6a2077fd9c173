import BlockGraph.Json.Printer
import BlockGraph.Text.Quoted

/-!
# Breaches

What a person is told who has to mend a JSON text: what breaks the grammar, or how the text differs
from the shape that it should have.
-/

namespace BlockGraph

/-- What stands where a value of another type is wanted. -/
inductive Found where
  | null
  | bool (value : Bool)
  | number (value : Number)
  | text (value : String)
  | list
  | object
  deriving DecidableEq, Repr

/-- The wording of what stands there. -/
def Found.message : Found → String
  | .null => "null"
  | .bool b => s!"boolean \x60{b}\x60"
  | .number (.int n) => s!"integer \x60{n}\x60"
  | .number (.real x) => s!"floating point \x60{String.ofList (Json.realChars x)}\x60"
  | .text s => s!"string {Text.quoted s}"
  | .list => "sequence"
  | .object => "map"

/-- What is wrong with a text. -/
inductive Breach where
  | endInList
  | endInObject
  | endInString
  | endInValue
  | wantsColon
  | wantsItemSeparator
  | wantsMemberSeparator
  | wantsWord
  | wantsValue
  | badEscape
  | badNumber
  | numberTooLarge
  | controlCharacter
  | keyNoString
  /-- The second half of a surrogate pair without the first, or a first half with something else
  behind it. -/
  | loneSurrogate
  /-- No escape follows the first half of a surrogate pair. -/
  | brokenPair
  | trailingComma
  | trailingCharacters
  | tooDeep
  | wrongType (found : Found) (wanted : String)
  /-- A list ends after so many items of a record. -/
  | wrongLength (items : Nat) (wanted : String)
  | missingField (name : String)
  | duplicateField (name : String)
  /-- A value is none that the field takes, and why. -/
  | badValue (why : String)
  deriving DecidableEq, Repr

def Breach.message : Breach → String
  | .endInList => "EOF while parsing a list"
  | .endInObject => "EOF while parsing an object"
  | .endInString => "EOF while parsing a string"
  | .endInValue => "EOF while parsing a value"
  | .wantsColon => "expected \x60:\x60"
  | .wantsItemSeparator => "expected \x60,\x60 or \x60]\x60"
  | .wantsMemberSeparator => "expected \x60,\x60 or \x60\x7d\x60"
  | .wantsWord => "expected ident"
  | .wantsValue => "expected value"
  | .badEscape => "invalid escape"
  | .badNumber => "invalid number"
  | .numberTooLarge => "number out of range"
  | .controlCharacter => "control character (\\u0000-\\u001F) found while parsing a string"
  | .keyNoString => "key must be a string"
  | .loneSurrogate => "lone leading surrogate in hex escape"
  | .brokenPair => "unexpected end of hex escape"
  | .trailingComma => "trailing comma"
  | .trailingCharacters => "trailing characters"
  | .tooDeep => "recursion limit exceeded"
  | .wrongType found wanted => s!"invalid type: {found.message}, expected {wanted}"
  | .wrongLength items wanted => s!"invalid length {items}, expected {wanted}"
  | .missingField name => s!"missing field \x60{name}\x60"
  | .duplicateField name => s!"duplicate field \x60{name}\x60"
  | .badValue why => why

end BlockGraph
