import PageGen.Evaluation

/-! Use of a component: finding its declaration and binding the arguments. -/
namespace PageGen

namespace Document

/-- The declaration that a use of a component stands for. A component that is
already in use, at any depth, may not be used again. -/
def resolve (document : Document) (context : Context) (name : String) :
    Except Failure Component :=
  if context.isActive name then
    .error (.recursiveComponent name (context.callStack ++ [name]))
  else
    match document.component? name with
    | some component => .ok component
    | none => .error (.componentNotFound name)

end Document

/-- Pairs parameters with arguments by position. Arguments are evaluated where
the component is used; a missing one is the empty string, and a surplus one is
not evaluated. -/
def bindParameters (context : Context) : List Parameter → List Expr → Run Failure (List Binding)
  | [], _ => pure []
  | parameter :: parameters, [] => do
    let rest ← bindParameters context parameters []
    pure (⟨parameter.name, parameter.type, Value.empty⟩ :: rest)
  | parameter :: parameters, argument :: arguments => do
    let value ← argument.evaluate context
    let rest ← bindParameters context parameters arguments
    pure (⟨parameter.name, parameter.type, value⟩ :: rest)

/-- The bindings for one use of a component. A wrong number of arguments is
logged before they are evaluated, the finished frame after that. -/
def Component.bindArguments (component : Component) (arguments : List Expr) (context : Context) :
    Run Failure (List Binding) := do
  if arguments.length ≠ component.parameters.length then
    Run.log (.argumentMismatch component.name component.parameters.length arguments.length)
  let bindings ← bindParameters context component.parameters arguments
  Run.log (.bound ⟨component.name, bindings⟩ context.depth)
  pure bindings

end PageGen
