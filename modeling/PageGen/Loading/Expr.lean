import PageGen.Document
import PageGen.Json.Value

/-! Expressions from JSON. An expression is an object with a `$type`. Its other
fields count only if the type is known; a field that is written more than once
has its last value. -/
namespace PageGen

/-- The field that holds the type of an expression or of a node. -/
def typeTag : String := "$type"

namespace Json

/-- The text of a field that has to be a string. -/
def asText : Json → Except Fault String
  | .string s => .ok s
  | other => other.mismatch "a string"

/-- The number of a field that has to be one. Integers are taken for doubles. -/
def asFloat : Json → Except Fault Float
  | .integer n => .ok (integerFloat n)
  | .float x => .ok x
  | other => other.mismatch "f64"

/-- The value of a field that has to be there. -/
def require {α : Type} (name : String) : Option α → Except Fault α
  | some value => .ok value
  | none => .error (.missingField name)

/-- Accepts what may stand in place of nothing behind a variant's name. -/
def asUnit : Json → Except Fault Unit
  | .null => .ok ()
  | .object [] => .ok ()
  | other => other.mismatch "unit"

end Json

open Json

def Operator.ofSymbol (symbol : String) : Except Fault Operator :=
  match Operator.all.find? fun operator => operator.symbol == symbol with
  | some operator => .ok operator
  | none => .error (.unknownVariant symbol (Operator.all.map Operator.symbol))

/-- An operator is its sign, or an object with the sign as its only key. -/
def Operator.ofJson : Json → Except Fault Operator
  | .string symbol => Operator.ofSymbol symbol
  | .object [] => .error (.invalidValue .map "map with a single key")
  | .object ((key, value) :: rest) =>
    if rest.all fun entry => entry.1 == key then do
      let operator ← Operator.ofSymbol key
      asUnit ((last? key rest).getD value)
      pure operator
    else .error (.invalidValue .map "map with a single key")
  | other => other.mismatch "string or map"

/-- Reads an expression. Present fields are judged in alphabetical order before
absent ones are missed. -/
def Expr.ofJson (value : Json) : Except Fault Expr :=
  match value with
  | .object entries =>
    match last? typeTag entries with
    | some (.string kind) =>
      if kind = "StringExpression" then do
        let text ← (last? "value" entries).mapM asText
        return .string (← require "value" text)
      else if kind = "NumberExpression" then do
        let number ← (last? "value" entries).mapM asFloat
        return .number (← require "value" number)
      else if kind = "SymbolReference" then do
        let symbol ← (last? "symbol" entries).mapM asText
        return .symbol (← require "symbol" symbol)
      else if kind = "Operation" then do
        let left ← (last? "left" entries).attach.mapM fun ⟨operand, _⟩ => Expr.ofJson operand
        let operator ← (last? "operator" entries).mapM Operator.ofJson
        let right ← (last? "right" entries).attach.mapM fun ⟨operand, _⟩ => Expr.ofJson operand
        return .operation (← require "left" left) (← require "operator" operator)
          (← require "right" right)
      else .ok (.unrecognized kind)
    | _ => .error (.missingField typeTag)
  | _ => .error (.missingField typeTag)
termination_by sizeOf value
decreasing_by
  all_goals
    have hSmaller := sizeOf_last?_lt ‹last? _ entries = some operand›
    simp only [Json.object.sizeOf_spec]
    omega

end PageGen
