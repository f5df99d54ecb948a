import PageGen.Run

/-! Evaluation of expressions against the innermost frame. -/
namespace PageGen

/-- Two numbers are added as numbers; every other sum joins the two texts. The
other operators work on two numbers only. -/
def Operator.apply (operator : Operator) (left right : Value) : Except Failure Value :=
  match operator, left, right with
  | .add, .number a, .number b => .ok (.number (a + b))
  | .add, left, right => .ok (.string (left.text ++ right.text))
  | .subtract, .number a, .number b => .ok (.number (a - b))
  | .multiply, .number a, .number b => .ok (.number (a * b))
  | .divide, .number a, .number b => .ok (.number (a / b))
  | operator, left, right => .error (.invalidOperation left operator right)

/-- The value of an expression. The left operand goes first, and an unbound
symbol is the empty string, which the log tells. -/
def Expr.evaluate (context : Context) : Expr → Run Failure Value
  | .string value => pure (.string value)
  | .number value => pure (.number value)
  | .symbol name =>
    match context.lookup name with
    | some value => pure value
    | none => do
      Run.log (.unresolvedSymbol name context.depth)
      pure Value.empty
  | .operation left operator right => do
    let leftValue ← left.evaluate context
    let rightValue ← right.evaluate context
    Run.ofExcept (operator.apply leftValue rightValue)
  | .unrecognized kind => Run.fail (.unhandledExpression kind)

end PageGen
