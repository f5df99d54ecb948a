import PageGen.Number.Text
import PageGen.Text.Quoted

/-! What can be wrong with a serialized document: that it is no JSON, or that
it is other JSON than is due. -/
namespace PageGen

namespace Json

inductive Found where
  | null
  | boolean (b : Bool)
  | integer (n : Int)
  | float (x : Float)
  | string (s : String)
  | sequence
  | map

def integerText (n : Int) : String :=
  String.ofList (signChars (decide (n < 0)) ++ Nat.toDigits 10 n.natAbs)

def Found.text : Found → String
  | .null => "null"
  | .boolean b => "boolean `" ++ (if b then "true" else "false") ++ "`"
  | .integer n => "integer `" ++ integerText n ++ "`"
  | .float x => "floating point `" ++ diagnosticNumber x ++ "`"
  | .string s => "string " ++ quoted s
  | .sequence => "sequence"
  | .map => "map"

inductive Fault where
  | endInValue
  | endInObject
  | endInList
  | endInString
  | expectedValue
  /-- A word starts like `true`, `false` or `null` and is none of them. -/
  | expectedWord
  | expectedColon
  | expectedListEnd
  | expectedObjectEnd
  | keyNotString
  | trailingComma
  | trailingCharacters
  | invalidNumber
  | numberOutOfRange
  | invalidEscape
  | controlCharacter
  | loneSurrogate
  /-- The first half of a surrogate pair without an escape after it. -/
  | endOfHexEscape
  | nestedTooDeep
  | invalidType (found : Found) (expected : String)
  | invalidValue (found : Found) (expected : String)
  | invalidLength (length : Nat) (expected : String)
  | unknownVariant (name : String) (known : List String)
  | missingField (name : String)
  | duplicateField (name : String)

/-- Alternatives as they are listed in a message. -/
def alternatives : List String → String
  | [] => "nothing"
  | [first] => "`" ++ first ++ "`"
  | [first, second] => "`" ++ first ++ "` or `" ++ second ++ "`"
  | many => "one of " ++ ", ".intercalate (many.map fun name => "`" ++ name ++ "`")

/-- A count with its noun: `1 element`, `2 elements`. -/
def elementCount (n : Nat) : String :=
  integerText n ++ (if n = 1 then " element" else " elements")

def Fault.message : Fault → String
  | .endInValue => "EOF while parsing a value"
  | .endInObject => "EOF while parsing an object"
  | .endInList => "EOF while parsing a list"
  | .endInString => "EOF while parsing a string"
  | .expectedValue => "expected value"
  | .expectedWord => "expected ident"
  | .expectedColon => "expected `:`"
  | .expectedListEnd => "expected `,` or `]`"
  | .expectedObjectEnd => "expected `,` or `\x7d`"
  | .keyNotString => "key must be a string"
  | .trailingComma => "trailing comma"
  | .trailingCharacters => "trailing characters"
  | .invalidNumber => "invalid number"
  | .numberOutOfRange => "number out of range"
  | .invalidEscape => "invalid escape"
  | .controlCharacter => "control character (\\u0000-\\u001F) found while parsing a string"
  | .loneSurrogate => "lone leading surrogate in hex escape"
  | .endOfHexEscape => "unexpected end of hex escape"
  | .nestedTooDeep => "recursion limit exceeded"
  | .invalidType found expected => "invalid type: " ++ found.text ++ ", expected " ++ expected
  | .invalidValue found expected => "invalid value: " ++ found.text ++ ", expected " ++ expected
  | .invalidLength length expected =>
    "invalid length " ++ integerText length ++ ", expected " ++ expected
  | .unknownVariant name known =>
    "unknown variant `" ++ name ++ "`, expected " ++ alternatives known
  | .missingField name => "missing field `" ++ name ++ "`"
  | .duplicateField name => "duplicate field `" ++ name ++ "`"

/-- A place in a text. Columns count the bytes since the last line break. -/
structure Position where
  line : Nat
  column : Nat
  deriving DecidableEq, Repr

/-- The place after the given number of bytes, counted on from a place. It may
lie inside of a character. -/
def Position.advance (position : Position) : List Char → Nat → Position
  | [], _ => position
  | c :: rest, bytes =>
    if c.utf8Size ≤ bytes then
      advance
        (if c = '\n' then ⟨position.line + 1, 0⟩ else ⟨position.line, position.column + c.utf8Size⟩)
        rest (bytes - c.utf8Size)
    else ⟨position.line, position.column + bytes⟩

/-- The place after the given number of bytes of a text. -/
def Position.ofOffset (text : String) (bytes : Nat) : Position :=
  Position.advance ⟨1, 0⟩ text.toList bytes

/-- The words that follow a message about a text. -/
def Position.text (position : Position) : String :=
  " at line " ++ integerText position.line ++ " column " ++ integerText position.column

end Json

end PageGen
