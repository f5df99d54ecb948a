import PageGen.Html
import PageGen.Css
import PageGen.Script

/-! The three files of one document. The targets are compiled one after
another, and the first failure ends the whole. -/
namespace PageGen

/-- The generated files, and the kinds of nodes that some target left out. -/
structure Site where
  html : String
  css : String
  js : String
  unsupported : List NodeKind
  deriving DecidableEq, Repr

namespace Site

def text (site : Site) : Target → String
  | .html => site.html
  | .css => site.css
  | .js => site.js

/-- The targets in the order in which their files are written. -/
def targets : List Target := [.html, .css, .js]

def compile (target : Target) (document : Document) (options : Options) : Run Failure Compiled :=
  match target with
  | .html => Html.compile document options
  | .css => Css.compile document options
  | .js => Script.compile document options

/-- Compiles one target of the whole, whose failure names it. -/
def part (target : Target) (document : Document) (options : Options) :
    Run TargetFailure Compiled :=
  (compile target document options).mapFailure fun cause => ⟨target, cause⟩

def generate (document : Document) (options : Options) : Run TargetFailure Site := do
  Run.log (.generateStarted document.components.length)
  let html ← part .html document options
  let css ← part .css document options
  let js ← part .js document options
  let unsupported := (html.unsupported ++ css.unsupported ++ js.unsupported).foldl addKind []
  Run.log (.generateComplete html.text.utf8ByteSize css.text.utf8ByteSize js.text.utf8ByteSize
    unsupported.length)
  pure ⟨html.text, css.text, js.text, unsupported⟩

end Site

end PageGen
