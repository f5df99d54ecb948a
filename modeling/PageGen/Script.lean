import PageGen.Evaluation
import PageGen.Output.Emission
import PageGen.Text.Escape

/-! The script: one function for each script function of the document, with a
call of `alert` for each message it shows. -/
namespace PageGen

namespace Script

/-- What becomes of a statement. Symbols have no value here. -/
def statement : Node → Run Failure (Emission (List Writer.Call))
  | .element (.popup text) => do
    let value ← text.evaluate Context.empty
    pure (.written [.line ("alert('" ++ escapeSingleQuotedScript value.text ++ "');")])
  | .element (.imported _) => pure (.unsupported .imported)
  | _ => pure .skipped

def header (function : ScriptFunction) : String :=
  "function " ++ function.name ++ "(" ++
    ", ".intercalate (function.parameters.map Parameter.name) ++ ") \x7b"

section

variable {σ : Type} (call : σ → Writer.Call → σ)

/-- Writes a function, by calls on what it is added to. -/
def addFunction (options : Options) (function : ScriptFunction) (output : Output σ) :
    Run Failure (Output σ) := do
  Run.log (.functionStarted function.name function.body.length)
  let start := output.map fun state => [.line (header function), .indent].foldl call state
  let body ← start.emitEach options (carryOut call) statement function.body
  pure (body.map fun state => [.dedent, .line "\x7d"].foldl call state)

/-- Writes functions, each after an empty line. -/
def addMore (options : Options) : List ScriptFunction → Output σ → Run Failure (Output σ)
  | [], output => pure output
  | function :: rest, output => do
    let next ← addFunction call options function (output.map fun state => call state .blank)
    addMore options rest next

/-- Writes functions, with empty lines between them. -/
def addAll (options : Options) : List ScriptFunction → Output σ → Run Failure (Output σ)
  | [], output => pure output
  | function :: rest, output => do
    let next ← addFunction call options function output
    addMore call options rest next

end

def compile (document : Document) (options : Options) : Run Failure Compiled := do
  Run.log (.jsStarted document.scripts.length)
  let output ← addAll Writer.call options document.scripts ⟨Writer.new options.indent, []⟩
  Run.log .jsComplete
  pure ⟨output.state.buffer, output.unsupported⟩

end Script

end PageGen
