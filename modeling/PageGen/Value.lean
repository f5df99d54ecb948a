import PageGen.Number.Text

/-! The values that expressions evaluate to, and their two texts: the one that
goes onto the page and the one that goes into messages. -/
namespace PageGen

inductive Value where
  | string (text : String)
  | number (x : Float)

namespace Value

/-- The value of everything that is missing: an unbound symbol, an argument
that was not passed. -/
def empty : Value := .string ""

/-- The text form: a string as it is, a number by `numberText`. -/
def text : Value → String
  | .string s => s
  | .number x => numberText x

/-- The form in messages: strings in single quotes, nothing escaped. -/
def literal : Value → String
  | .string s => "'" ++ s ++ "'"
  | .number x => numberText x

def isString : Value → Bool
  | .string _ => true
  | .number _ => false

def isNumber : Value → Bool
  | .string _ => false
  | .number _ => true

/-- Whether this is the empty string. No number is. -/
def isEmpty : Value → Bool
  | .string s => s.isEmpty
  | .number _ => false

end Value

end PageGen
