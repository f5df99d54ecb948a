import PageGen.Inlining

/-! The style sheet. Elements carry their own styles, so it holds no more than
the rules of the classes that page headers use, each once, in the order in
which they are first needed. -/
namespace PageGen

namespace Css

structure Rule where
  selector : String
  declarations : List (String × String)
  deriving DecidableEq, Repr

/-- The rules that every page header needs. -/
def topbarRules : List Rule :=
  [⟨".topbar", [("background-color", "#333"), ("overflow", "hidden")]⟩,
    ⟨".topbar nav a",
      [("display", "block"), ("color", "#f2f2f2"), ("margin-left", "1%"), ("font-size", "17px"),
        ("text-decoration", "none")]⟩]

/-- The rules that a page header in a fixed place needs besides. -/
def fixedRules : List Rule :=
  [⟨".topbar--fixed", [("position", "fixed"), ("top", "0"), ("left", "0"), ("width", "100%")]⟩]

/-- A style sheet in the making, with the selectors of the rules it has. -/
structure Sheet where
  writer : Writer
  selectors : List String

/-- The calls that write a rule. -/
def Rule.calls (rule : Rule) : List Writer.Call :=
  [.line (rule.selector ++ " \x7b"), .indent] ++
    (rule.declarations.map fun declaration =>
      .line (declaration.1 ++ ": " ++ declaration.2 ++ ";")) ++
    [.dedent, .line "\x7d"]

/-- Adds a rule, after an empty line unless it is the first. -/
def Sheet.add (sheet : Sheet) (rule : Rule) : Sheet :=
  let apart := if sheet.writer.isEmpty then sheet.writer else sheet.writer.blank
  ⟨rule.calls.foldl Writer.call apart, sheet.selectors ++ [rule.selector]⟩

/-- Adds those of the rules that are not there yet. -/
def addRules : List Rule → Sheet → Run Failure Sheet
  | [], sheet => pure sheet
  | rule :: rest, sheet =>
    if rule.selector ∈ sheet.selectors then addRules rest sheet
    else do
      Run.log (.ruleAdded rule.selector)
      addRules rest (sheet.add rule)

/-- What becomes of an element: a page header asks for rules. -/
def element (_ : Context) : Element → Run Failure (Emission (List Rule))
  | .topbar _ fixed _ => pure (.written (topbarRules ++ if fixed then fixedRules else []))
  | .imported _ => pure (.unsupported .imported)
  | .title _ => pure .skipped
  | .icon _ => pure .skipped
  | .paragraph _ _ => pure .skipped
  | .button _ _ _ => pure .skipped
  | .link _ _ => pure .skipped
  | .textbox _ _ _ _ => pure .skipped
  | .linebreak => pure .skipped
  | .image _ _ _ => pure .skipped
  | .heading _ _ _ => pure .skipped
  | .popup _ => pure .skipped

/-- The walk over the body. Containers and components leave no trace of their own. -/
def pass : Pass Sheet (List Rule) where
  element := element
  write := addRules
  openDiv := id
  closeDiv := id
  inlining _ _ := pure ()

def compile (document : Document) (options : Options) : Run Failure Compiled := do
  Run.log (.cssStarted document.body.length)
  let output ← pass.walk document options Context.empty document.body
    ⟨⟨Writer.new options.indent, []⟩, []⟩
  Run.log (.cssComplete output.state.selectors.length)
  pure ⟨output.state.writer.buffer, output.unsupported⟩

end Css

end PageGen
