import PageGen.Document
import PageGen.Value

/-! What can go wrong while a document is compiled. -/
namespace PageGen

/-- The causes that end a compilation. -/
inductive Failure where
  /-- An operator met operands it does not work on. -/
  | invalidOperation (left : Value) (operator : Operator) (right : Value)
  | unhandledExpression (kind : String)
  | componentNotFound (name : String)
  /-- A component is used inside itself. The stack starts with the outermost
  component and ends with the one that is used again. -/
  | recursiveComponent (name : String) (callStack : List String)
  /-- A node that no target writes, where that is an error. -/
  | unsupportedFeature (kind : NodeKind)

def Failure.message : Failure → String
  | .invalidOperation left operator right =>
    "Invalid operation: (" ++ left.literal ++ " " ++ operator.symbol ++ " " ++ right.literal ++ ")"
  | .unhandledExpression kind => "Unhandled expression type: " ++ kind
  | .componentNotFound name => "Component '" ++ name ++ "' not found"
  | .recursiveComponent name callStack =>
    "Recursive component detected: " ++ name ++ "\nCall stack: " ++ " → ".intercalate callStack
  | .unsupportedFeature kind => "Unsupported feature: " ++ kind.name

/-- The three files that are generated. -/
inductive Target where
  | html
  | css
  | js
  deriving DecidableEq, Repr

def Target.name : Target → String
  | .html => "HTML"
  | .css => "CSS"
  | .js => "JS"

/-- The name of the file a target is written to. -/
def Target.fileName : Target → String
  | .html => "index.html"
  | .css => "stylesheet.css"
  | .js => "script.js"

structure TargetFailure where
  target : Target
  cause : Failure

def TargetFailure.message (failure : TargetFailure) : String :=
  failure.target.name ++ " generation failed: " ++ failure.cause.message

end PageGen
