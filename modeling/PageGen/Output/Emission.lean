import PageGen.Output.Writer
import PageGen.Run

/-! What becomes of a node in one target, and the record of the kinds that a
target could not write. -/
namespace PageGen

/-- The outcome for one node in one target. -/
inductive Emission (α : Type) where
  | written (output : α)
  /-- The target has no rule for this kind of node. -/
  | skipped
  /-- The kind is known, and no target writes it. -/
  | unsupported (kind : NodeKind)

/-- Carries out calls one after another, without any effect on the log. They are
calls on a writer, or on anything else that can take them. -/
def carryOut {σ : Type} (call : σ → Writer.Call → σ) (calls : List Writer.Call) (state : σ) :
    Run Failure σ :=
  pure (calls.foldl call state)

/-- What one target produced, and the unsupported kinds it met, each once. -/
structure Compiled where
  text : String
  unsupported : List NodeKind
  deriving DecidableEq, Repr

/-- Adds a kind that is not there yet. -/
def addKind (kinds : List NodeKind) (kind : NodeKind) : List NodeKind :=
  if kind ∈ kinds then kinds else kinds ++ [kind]

/-- Takes note of an emission. An unsupported node ends the run if the options
say so; otherwise it is logged every time and listed once. -/
def recordEmission {α : Type} (options : Options) (kinds : List NodeKind) :
    Emission α → Run Failure (List NodeKind)
  | .written _ => pure kinds
  | .skipped => pure kinds
  | .unsupported kind =>
    if options.failOnUnsupported then Run.fail (.unsupportedFeature kind)
    else do
      Run.log (.unsupported kind)
      pure (addKind kinds kind)

/-- A target in the making: what is written so far, and the unsupported kinds met. -/
structure Output (σ : Type) where
  state : σ
  unsupported : List NodeKind

namespace Output

variable {σ α : Type}

def map (f : σ → σ) (output : Output σ) : Output σ := { output with state := f output.state }

/-- Finds out what becomes of a node, writes it, and takes note of it. -/
def emit (options : Options) (write : α → σ → Run Failure σ)
    (emission : Run Failure (Emission α)) (output : Output σ) : Run Failure (Output σ) := do
  let outcome ← emission
  let state ←
    match outcome with
    | .written text => write text output.state
    | .skipped => pure output.state
    | .unsupported _ => pure output.state
  let unsupported ← recordEmission options output.unsupported outcome
  pure ⟨state, unsupported⟩

def emitEach (options : Options) (write : α → σ → Run Failure σ)
    (emission : Node → Run Failure (Emission α)) :
    List Node → Output σ → Run Failure (Output σ)
  | [], output => pure output
  | node :: rest, output => do
    let next ← output.emit options write (emission node)
    emitEach options write emission rest next

end Output

end PageGen
