/-! A text that is written line by line, each line indented to the current
depth. -/
namespace PageGen

structure Writer where
  /-- The text one level of indentation is written with. -/
  indent : String
  depth : Nat
  buffer : String
  deriving DecidableEq, Repr

namespace Writer

def new (indent : String) : Writer := ⟨indent, 0, ""⟩

/-- The indentation of a line at a depth. -/
def margin (indent : String) (depth : Nat) : String := String.join (List.replicate depth indent)

/-- Writes one line at the current depth. A text with line breaks of its own
is indented only at its start. -/
def line (writer : Writer) (text : String) : Writer :=
  { writer with buffer := writer.buffer ++ margin writer.indent writer.depth ++ text ++ "\n" }

def blank (writer : Writer) : Writer := { writer with buffer := writer.buffer ++ "\n" }

def indented (writer : Writer) : Writer := { writer with depth := writer.depth + 1 }

/-- One level less. At depth zero nothing changes. -/
def dedented (writer : Writer) : Writer := { writer with depth := writer.depth - 1 }

def isEmpty (writer : Writer) : Bool := writer.buffer.isEmpty

/-- A call on a writer. -/
inductive Call where
  | line (text : String)
  | blank
  | indent
  | dedent
  deriving DecidableEq, Repr

/-- Carries out a call. -/
def call (writer : Writer) : Call → Writer
  | .line text => writer.line text
  | .blank => writer.blank
  | .indent => writer.indented
  | .dedent => writer.dedented

end Writer

end PageGen
