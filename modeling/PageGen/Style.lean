import PageGen.Evaluation

/-! Inline styles: a short list of properties is let through, under the names
that style sheets use, and every other declaration is left out unevaluated. -/
namespace PageGen

/-- The properties that are let through, with their names in a style sheet. -/
def styleProperties : List (String × String) :=
  [("text-color", "color"), ("font-size", "font-size"), ("height", "height"),
    ("width", "width"), ("background-color", "background-color")]

/-- The name of a property in a style sheet, if it is let through. -/
def cssName? (property : String) : Option String := styleProperties.lookup property

def StyleDeclaration.css (context : Context) (declaration : StyleDeclaration) :
    Run Failure String :=
  match cssName? declaration.property with
  | none => do
    Run.log (.unknownStyle declaration.property)
    pure ""
  | some name => do
    let value ← declaration.value.evaluate context
    pure (name ++ ":" ++ value.text ++ "; ")

/-- The declarations as the text of a style attribute. -/
def inlineStyle (context : Context) : List StyleDeclaration → Run Failure String
  | [] => pure ""
  | declaration :: rest => do
    let first ← declaration.css context
    let others ← inlineStyle context rest
    pure (first ++ others)

end PageGen
