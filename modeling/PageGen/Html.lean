import PageGen.Inlining
import PageGen.Style
import PageGen.Text.Escape

/-! The page. Every element is a few calls on a writer, texts and attribute values
are evaluated and escaped, and a component stands for its body. -/
namespace PageGen

namespace Html

/-- An evaluated text, escaped for element content or an attribute value. -/
def textContent (context : Context) (expr : Expr) : Run Failure String := do
  let value ← expr.evaluate context
  pure (escapeHtml value.text)

/-- The style attribute, or nothing when no declaration is let through. -/
def styleAttribute (context : Context) (styles : List StyleDeclaration) :
    Run Failure String := do
  let style ← inlineStyle context styles
  pure (if style.isEmpty then "" else " style='" ++ escapeHtml style ++ "'")

/-- An argument of a call in script: numbers bare, strings in double quotes. It
is the value that decides, not the form of the expression. -/
def callArgument : Value → String
  | .string s => "\"" ++ escapeDoubleQuotedScript s ++ "\""
  | .number x => numberText x

/-- The arguments of a call in script, evaluated from left to right. -/
def callArguments (context : Context) : List Expr → Run Failure (List String)
  | [] => pure []
  | argument :: rest => do
    let value ← argument.evaluate context
    let others ← callArguments context rest
    pure (callArgument value :: others)

def single (text : String) : Emission (List Writer.Call) := .written [.line text]

/-- What becomes of a node of the head. -/
def headElement (context : Context) : Element → Run Failure (Emission (List Writer.Call))
  | .title text => do
    let text ← textContent context text
    pure (single ("<title>" ++ text ++ "</title>"))
  | .icon imagePath => do
    let href ← textContent context imagePath
    pure (single ("<link rel=\"icon\" href=\"" ++ href ++ "\">"))
  | .imported _ => pure (.unsupported .imported)
  | .paragraph _ _ => pure .skipped
  | .button _ _ _ => pure .skipped
  | .link _ _ => pure .skipped
  | .textbox _ _ _ _ => pure .skipped
  | .linebreak => pure .skipped
  | .image _ _ _ => pure .skipped
  | .heading _ _ _ => pure .skipped
  | .topbar _ _ _ => pure .skipped
  | .popup _ => pure .skipped

@[inherit_doc headElement]
def headNode (context : Context) : Node → Run Failure (Emission (List Writer.Call))
  | .element e => headElement context e
  | .div _ => pure .skipped
  | .useComponent _ _ => pure .skipped

def inputLine (context : Context) (id : String) : Option Expr → Run Failure String
  | none => pure ("<input type='text' id='" ++ id ++ "'>")
  | some placeholder => do
    let text ← textContent context placeholder
    pure ("<input type='text' id='" ++ id ++ "' placeholder='" ++ text ++ "'>")

def topbarClass (fixed : Bool) : String := if fixed then "topbar topbar--fixed" else "topbar"

/-- The tag of a heading. Every level is taken as it is. -/
def headingTag (level : UInt8) : String := "h" ++ String.ofList (Nat.toDigits 10 level.toNat)

def bodyElement (context : Context) : Element → Run Failure (Emission (List Writer.Call))
  | .paragraph text styles => do
    let style ← styleAttribute context styles
    let text ← textContent context text
    pure (single ("<p" ++ style ++ ">" ++ text ++ "</p>"))
  | .button text none _ => do
    let text ← textContent context text
    pure (single ("<button>" ++ text ++ "</button>"))
  | .button text (some action) arguments => do
    let text ← textContent context text
    let arguments ← callArguments context arguments
    let call := action ++ "(" ++ ", ".intercalate arguments ++ ")"
    pure (single ("<button onclick='" ++ escapeSingleQuoted call ++ "'>" ++ text ++ "</button>"))
  | .link url none => do
    let href ← textContent context url
    pure (single ("<a href='" ++ href ++ "'>" ++ href ++ "</a>"))
  | .link url (some text) => do
    let href ← textContent context url
    let label ← textContent context text
    pure (single ("<a href='" ++ href ++ "'>" ++ label ++ "</a>"))
  | .textbox name placeholder none _ => do
    let input ← inputLine context (escapeHtml name) placeholder
    pure (single input)
  | .textbox name placeholder (some label) labelAfter => do
    let id := escapeHtml name
    let input ← inputLine context id placeholder
    let text ← textContent context label
    let label := "<label for='" ++ id ++ "'>" ++ text ++ "</label>"
    pure (.written (if labelAfter then [.line input, .line label] else [.line label, .line input]))
  | .linebreak => pure (single "<br>")
  | .image imagePath altText styles => do
    let src ← textContent context imagePath
    let alt := escapeHtml (altText.getD "")
    let style ← styleAttribute context styles
    pure (single ("<img src='" ++ src ++ "' alt='" ++ alt ++ "'" ++ style ++ ">"))
  | .heading level text styles => do
    let style ← styleAttribute context styles
    let text ← textContent context text
    let tag := headingTag level
    pure (single ("<" ++ tag ++ style ++ ">" ++ text ++ "</" ++ tag ++ ">"))
  | .topbar value fixed styles => do
    let style ← styleAttribute context styles
    let text ← textContent context value
    pure (.written
      [.line ("<header class='" ++ topbarClass fixed ++ "'" ++ style ++ ">"),
        .indent,
        .line "<nav>",
        .indent,
        .line ("<a" ++ style ++ " href='./'>" ++ text ++ "</a>"),
        .dedent,
        .line "</nav>",
        .dedent,
        .line "</header>"])
  | .imported _ => pure (.unsupported .imported)
  | .title _ => pure .skipped
  | .icon _ => pure .skipped
  | .popup _ => pure .skipped

def beforeHead : List Writer.Call :=
  [.line "<!DOCTYPE html>", .line "<html>", .indent, .line "<head>", .indent]

/-- The calls between the elements of the head and those of the body. They bring
in the style sheet and the script. -/
def betweenHeadAndBody : List Writer.Call :=
  [.line ("<link rel=\"stylesheet\" href=\"" ++ Target.css.fileName ++ "\">"),
    .line ("<script src=\"" ++ Target.js.fileName ++ "\"></script>"),
    .dedent, .line "</head>", .line "<body>", .indent]

def afterBody : List Writer.Call := [.dedent, .line "</body>", .dedent, .line "</html>"]

section

variable {σ : Type} (call : σ → Writer.Call → σ)

/-- The walk over the body. A container is a line before and a line after its
children, which are one level deeper. -/
def passOn : Pass σ (List Writer.Call) where
  element := bodyElement
  write := carryOut call
  openDiv state := [.line "<div>", .indent].foldl call state
  closeDiv state := [.dedent, .line "</div>"].foldl call state
  inlining component depth := Run.log (.inlining component depth)

/-- Makes a page by calls on what it starts with. -/
def pageOn (document : Document) (options : Options) (start : σ) : Run Failure (Output σ) := do
  let top : Output σ := ⟨beforeHead.foldl call start, []⟩
  let head ← top.emitEach options (carryOut call) (headNode Context.empty) document.head
  let body ← (passOn call).walk document options Context.empty document.body
    (head.map fun state => betweenHeadAndBody.foldl call state)
  pure (body.map fun state => afterBody.foldl call state)

end

@[inherit_doc passOn]
def pass : Pass Writer (List Writer.Call) := passOn Writer.call

/-- The page as a writer's output. -/
def page (document : Document) (options : Options) : Run Failure (Output Writer) :=
  pageOn Writer.call document options (Writer.new options.indent)

def compile (document : Document) (options : Options) : Run Failure Compiled := do
  Run.log (.htmlStarted document.head.length document.body.length)
  let output ← page document options
  Run.log (.htmlComplete output.state.buffer.utf8ByteSize)
  pure ⟨output.state.buffer, output.unsupported⟩

end Html

end PageGen
