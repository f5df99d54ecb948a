import PageGen.Failure

/-! Bindings of component parameters. While a component's body is compiled a
frame with its parameters stands on a stack; symbols are looked up in the
innermost frame only. -/
namespace PageGen

/-- One parameter with the value it stands for. -/
structure Binding where
  name : String
  type : ParamType
  value : Value

/-- The parameters of one component in use. -/
structure Frame where
  component : String
  bindings : List Binding

/-- The value of the first parameter of this name. -/
def Frame.get? (frame : Frame) (name : String) : Option Value :=
  (frame.bindings.find? fun binding => binding.name == name).map Binding.value

/-- The frames of all components in use, the innermost first. -/
structure Context where
  frames : List Frame

namespace Context

def empty : Context := ⟨[]⟩

def push (context : Context) (frame : Frame) : Context := ⟨frame :: context.frames⟩

def depth (context : Context) : Nat := context.frames.length

def current? (context : Context) : Option Frame := context.frames.head?

/-- The value of a symbol. Outer frames are never asked. -/
def lookup (context : Context) (name : String) : Option Value :=
  context.current?.bind fun frame => frame.get? name

/-- Whether a component of this name is in use, at any depth. -/
def isActive (context : Context) (name : String) : Bool :=
  context.frames.any fun frame => frame.component == name

/-- The names of the components in use, the outermost first. -/
def callStack (context : Context) : List String :=
  context.frames.reverse.map Frame.component

variable {context : Context} {name : String}

theorem callStack_push (context : Context) (frame : Frame) :
    (context.push frame).callStack = context.callStack ++ [frame.component] := by
  simp [callStack, push]

theorem isActive_iff_mem : context.isActive name = true ↔ name ∈ context.callStack := by
  simp [isActive, callStack]

theorem isActive_eq_false_iff : context.isActive name = false ↔ name ∉ context.callStack := by
  rw [← isActive_iff_mem, Bool.not_eq_true]

theorem length_callStack (context : Context) : context.callStack.length = context.depth := by
  simp [callStack, depth]

end Context

end PageGen
