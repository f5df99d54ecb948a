import PageGen.Binding

/-! What the log of a compilation can tell, and how the log shows it. -/
namespace PageGen

inductive Level where
  | trace
  | debug
  | info
  | warn
  deriving DecidableEq, Repr

def Level.name : Level → String
  | .trace => "TRACE"
  | .debug => "DEBUG"
  | .info => "INFO"
  | .warn => "WARN"

inductive Event where
  | generateStarted (components : Nat)
  | htmlStarted (head body : Nat)
  | cssStarted (body : Nat)
  | jsStarted (functions : Nat)
  /-- A symbol without a value was taken for the empty string. -/
  | unresolvedSymbol (symbol : String) (depth : Nat)
  | unknownStyle (property : String)
  | argumentMismatch (component : String) (expected received : Nat)
  /-- A frame was made, to stand on a stack of this depth. -/
  | bound (frame : Frame) (depth : Nat)
  | inlining (component : String) (depth : Nat)
  | unsupported (kind : NodeKind)
  | ruleAdded (selector : String)
  | functionStarted (name : String) (statements : Nat)
  | htmlComplete (bytes : Nat)
  | cssComplete (rules : Nat)
  | jsComplete
  | generateComplete (html css js kinds : Nat)
  /-- A frame was put on the stack. This is not shown in the log. -/
  | entered (frame : Frame)
  /-- The innermost frame was taken off the stack. This is not shown in the log. -/
  | left

inductive FieldValue where
  | text (s : String)
  | count (n : Nat)

/-- How an event is shown: the start of a named run, or a message with its level. -/
inductive EventHeading where
  | span (name : String)
  | message (level : Level) (text : String)

namespace Event

/-- What the log shows of an event, if it shows it. -/
def heading? : Event → Option EventHeading
  | .generateStarted _ => some (.span "generate")
  | .htmlStarted _ _ => some (.span "compile_to_html")
  | .cssStarted _ => some (.span "compile_to_css")
  | .jsStarted _ => some (.span "compile_to_js")
  | .unresolvedSymbol _ _ => some (.message .debug "Unresolved symbol - using empty string")
  | .unknownStyle _ => some (.message .trace "Skipping unknown style property")
  | .argumentMismatch _ _ _ =>
    some (.message .warn "Component argument count does not match its parameters")
  | .bound _ _ => some (.message .debug "Bound component arguments")
  | .inlining _ _ => some (.message .debug "Inlining component")
  | .unsupported _ => some (.message .warn "Node kind not supported yet - nothing emitted")
  | .ruleAdded _ => some (.message .debug "Adding rule")
  | .functionStarted _ _ => some (.message .debug "Compiling script function")
  | .htmlComplete _ => some (.message .info "HTML compilation complete")
  | .cssComplete _ => some (.message .info "CSS compilation complete")
  | .jsComplete => some (.message .info "JS compilation complete")
  | .generateComplete _ _ _ _ => some (.message .info "Generation complete")
  | .entered _ => none
  | .left => none

def fields : Event → List (String × FieldValue)
  | .generateStarted components => [("components", .count components)]
  | .htmlStarted head body => [("head", .count head), ("body", .count body)]
  | .cssStarted body => [("body", .count body)]
  | .jsStarted functions => [("functions", .count functions)]
  | .unresolvedSymbol symbol depth => [("symbol", .text symbol), ("depth", .count depth)]
  | .unknownStyle property => [("property", .text property)]
  | .argumentMismatch component expected received =>
    [("component", .text component), ("expected", .count expected),
      ("received", .count received)]
  | .bound frame depth =>
    [("component", .text frame.component), ("bindings", .count frame.bindings.length),
      ("depth", .count depth)]
  | .inlining component depth => [("component", .text component), ("depth", .count depth)]
  | .unsupported kind => [("kind", .text kind.name)]
  | .ruleAdded selector => [("selector", .text selector)]
  | .functionStarted name statements =>
    [("function", .text name), ("statements", .count statements)]
  | .htmlComplete bytes => [("bytes", .count bytes)]
  | .cssComplete rules => [("rules", .count rules)]
  | .jsComplete => []
  | .generateComplete html css js kinds =>
    [("html", .count html), ("css", .count css), ("js", .count js),
      ("unsupported", .count kinds)]
  | .entered _ => []
  | .left => []

end Event

end PageGen
