import PageGen.Proofs.Instance

/-! Substitution of expressions for symbols. Replacing every symbol by a literal
of what it stands for makes an expression that no longer needs a context: it
evaluates outside of all components to what the original evaluates to inside. -/
namespace PageGen

/-- The literal of a value. -/
def Value.toExpr : Value → Expr
  | .string s => .string s
  | .number x => .number x

def Expr.substitute (replacement : String → Expr) : Expr → Expr
  | .string value => .string value
  | .number value => .number value
  | .symbol name => replacement name
  | .operation left operator right =>
    .operation (left.substitute replacement) operator (right.substitute replacement)
  | .unrecognized kind => .unrecognized kind

def StyleDeclaration.substitute (replacement : String → Expr) (declaration : StyleDeclaration) :
    StyleDeclaration :=
  { declaration with value := declaration.value.substitute replacement }

/-- Substitution in every expression of an element. The names that an element
holds as plain text are no symbols. -/
def Element.substitute (replacement : String → Expr) : Element → Element
  | .title text => .title (text.substitute replacement)
  | .icon imagePath => .icon (imagePath.substitute replacement)
  | .paragraph text styles =>
    .paragraph (text.substitute replacement) (styles.map (.substitute replacement))
  | .button text action arguments =>
    .button (text.substitute replacement) action (arguments.map (.substitute replacement))
  | .link url text => .link (url.substitute replacement) (text.map (.substitute replacement))
  | .textbox name placeholder label labelAfter =>
    .textbox name (placeholder.map (.substitute replacement))
      (label.map (.substitute replacement)) labelAfter
  | .linebreak => .linebreak
  | .image imagePath altText styles =>
    .image (imagePath.substitute replacement) altText (styles.map (.substitute replacement))
  | .heading level text styles =>
    .heading level (text.substitute replacement) (styles.map (.substitute replacement))
  | .topbar value fixed styles =>
    .topbar (value.substitute replacement) fixed (styles.map (.substitute replacement))
  | .imported path => .imported path
  | .popup text => .popup (text.substitute replacement)

mutual

/-- Substitution in every expression of a node, at any depth of containers. -/
def Node.substitute (replacement : String → Expr) : Node → Node
  | .element e => .element (e.substitute replacement)
  | .div children => .div (substituteAll replacement children)
  | .useComponent component arguments =>
    .useComponent component (arguments.map (.substitute replacement))

@[inherit_doc Node.substitute]
def substituteAll (replacement : String → Expr) : List Node → List Node
  | [] => []
  | node :: rest => node.substitute replacement :: substituteAll replacement rest

end

/-- What the symbols of a context are to be replaced by. Inside a component that
is the literal of the bound value, or the empty string. Outside of all
components a symbol stays as it is. -/
def Context.replacement (context : Context) (name : String) : Expr :=
  match context.current? with
  | none => .symbol name
  | some frame => ((frame.get? name).getD Value.empty).toExpr

theorem Expr.substitute_symbol : Expr.substitute .symbol = id := by
  funext expr
  induction expr with
  | operation left operator right ihLeft ihRight => simp only [Expr.substitute, ihLeft, ihRight, id]
  | _ => rfl

theorem StyleDeclaration.substitute_symbol : StyleDeclaration.substitute .symbol = id := by
  funext declaration
  rw [StyleDeclaration.substitute, Expr.substitute_symbol]
  rfl

theorem Element.substitute_symbol (e : Element) : e.substitute .symbol = e := by
  cases e <;> simp only [Element.substitute, Expr.substitute_symbol,
    StyleDeclaration.substitute_symbol, List.map_id, Option.map_id, id]

mutual

theorem Node.substitute_symbol (node : Node) : node.substitute .symbol = node := by
  cases node with
  | element e => rw [Node.substitute, Element.substitute_symbol]
  | div children => rw [Node.substitute, substituteAll_symbol children]
  | useComponent component arguments =>
      rw [Node.substitute, Expr.substitute_symbol, List.map_id]

/-- Replacing symbols by themselves changes nothing. -/
theorem substituteAll_symbol (nodes : List Node) : substituteAll .symbol nodes = nodes := by
  cases nodes with
  | nil => rfl
  | cons node rest =>
      rw [substituteAll, Node.substitute_symbol node, substituteAll_symbol rest]

end

theorem Context.replacement_empty : Context.empty.replacement = Expr.symbol := rfl

variable {context : Context}

theorem Value.toExpr_evaluate (value : Value) (context : Context) :
    (value.toExpr.evaluate context).result = .ok value := by
  cases value <;> rfl

/-- A closed expression has the value that the original has in its context, or
fails as it does. -/
theorem Expr.evaluate_substitute (context : Context) (expr : Expr) :
    ((expr.substitute context.replacement).evaluate Context.empty).result =
      (expr.evaluate context).result := by
  induction expr with
  | symbol name =>
      rw [Expr.substitute, Context.replacement, Expr.evaluate, Context.lookup]
      cases context.current? with
      | none => rfl
      | some frame =>
          simp only [Option.bind_some]
          rw [Value.toExpr_evaluate]
          cases frame.get? name <;> rfl
  | operation left operator right ihLeft ihRight =>
      rw [Expr.substitute, Expr.evaluate, Expr.evaluate]
      exact Run.result_bind_congr ihLeft fun leftValue =>
        Run.result_bind_congr ihRight fun rightValue => rfl
  | _ => rfl

theorem inlineStyle_substitute (context : Context) (styles : List StyleDeclaration) :
    (inlineStyle Context.empty (styles.map (.substitute context.replacement))).result =
      (inlineStyle context styles).result := by
  induction styles with
  | nil => rfl
  | cons declaration rest ih =>
      have hFirst : ((declaration.substitute context.replacement).css Context.empty).result =
          (declaration.css context).result := by
        unfold StyleDeclaration.css
        cases hName : cssName? declaration.property with
        | none => simp only [StyleDeclaration.substitute, hName]
        | some name =>
            simp only [StyleDeclaration.substitute, hName]
            exact Run.result_bind_congr (declaration.value.evaluate_substitute context) fun _ => rfl
      exact Run.result_bind_congr hFirst fun _ => Run.result_bind_congr ih fun _ => rfl

/-- Arguments that were substituted into the caller are bound, outside of all
components, to what the originals are bound to in the caller. -/
theorem bindParameters_substitute (context : Context) (parameters : List Parameter)
    (arguments : List Expr) :
    (bindParameters Context.empty parameters
        (arguments.map (.substitute context.replacement))).result =
      (bindParameters context parameters arguments).result := by
  induction parameters generalizing arguments with
  | nil => rfl
  | cons parameter rest ih =>
      cases arguments with
      | nil => exact Run.result_bind_congr (ih []) fun _ => rfl
      | cons argument others =>
          exact Run.result_bind_congr (argument.evaluate_substitute context) fun _ =>
            Run.result_bind_congr (ih others) fun _ => rfl

namespace Html

theorem textContent_substitute (context : Context) (expr : Expr) :
    (textContent Context.empty (expr.substitute context.replacement)).result =
      (textContent context expr).result :=
  Run.result_bind_congr (expr.evaluate_substitute context) fun _ => rfl

theorem styleAttribute_substitute (context : Context) (styles : List StyleDeclaration) :
    (styleAttribute Context.empty (styles.map (.substitute context.replacement))).result =
      (styleAttribute context styles).result :=
  Run.result_bind_congr (inlineStyle_substitute context styles) fun _ => rfl

theorem callArguments_substitute (context : Context) (arguments : List Expr) :
    (callArguments Context.empty (arguments.map (.substitute context.replacement))).result =
      (callArguments context arguments).result := by
  induction arguments with
  | nil => rfl
  | cons argument rest ih =>
      exact Run.result_bind_congr (argument.evaluate_substitute context) fun _ =>
        Run.result_bind_congr ih fun _ => rfl

theorem inputLine_substitute (context : Context) (id : String) (placeholder : Option Expr) :
    (inputLine Context.empty id (placeholder.map (.substitute context.replacement))).result =
      (inputLine context id placeholder).result := by
  cases placeholder with
  | none => rfl
  | some text => exact Run.result_bind_congr (textContent_substitute context text) fun _ => rfl

/-- A closed element is written as the original is in its context. -/
theorem bodyElement_substitute (context : Context) (e : Element) :
    (bodyElement Context.empty (e.substitute context.replacement)).result =
      (bodyElement context e).result := by
  have hText := textContent_substitute context
  have hStyle := styleAttribute_substitute context
  cases e with
  | paragraph text styles =>
      exact Run.result_bind_congr (hStyle styles) fun _ =>
        Run.result_bind_congr (hText text) fun _ => rfl
  | button text action arguments =>
      cases action with
      | none => exact Run.result_bind_congr (hText text) fun _ => rfl
      | some action =>
          exact Run.result_bind_congr (hText text) fun _ =>
            Run.result_bind_congr (callArguments_substitute context arguments) fun _ => rfl
  | link url text =>
      cases text with
      | none => exact Run.result_bind_congr (hText url) fun _ => rfl
      | some text =>
          exact Run.result_bind_congr (hText url) fun _ =>
            Run.result_bind_congr (hText text) fun _ => rfl
  | textbox name placeholder label labelAfter =>
      cases label with
      | none =>
          exact Run.result_bind_congr (inputLine_substitute context _ placeholder) fun _ => rfl
      | some label =>
          exact Run.result_bind_congr (inputLine_substitute context _ placeholder) fun _ =>
            Run.result_bind_congr (hText label) fun _ => rfl
  | image path alt styles =>
      exact Run.result_bind_congr (hText path) fun _ =>
        Run.result_bind_congr (hStyle styles) fun _ => rfl
  | heading level text styles =>
      exact Run.result_bind_congr (hStyle styles) fun _ =>
        Run.result_bind_congr (hText text) fun _ => rfl
  | topbar value fixed styles =>
      exact Run.result_bind_congr (hStyle styles) fun _ =>
        Run.result_bind_congr (hText value) fun _ => rfl
  | _ => rfl

end Html

/-- The style sheet does not evaluate anything. -/
theorem Css.element_substitute (context : Context) (e : Element) :
    (Css.element Context.empty (e.substitute context.replacement)).result =
      (Css.element context e).result := by
  cases e <;> rfl

end PageGen
