import PageGen.Proofs.Layout
import PageGen.Proofs.Targets

/-! The tree of a page. It is told without any text of markup: which elements a
node stands for, with which attributes and which text. The page that is written
reads as this tree, whatever the texts and values in it are. -/
namespace PageGen

/-- The text that an expression comes to. -/
def Expr.textIn (context : Context) (expr : Expr) : Except Failure String :=
  (expr.evaluate context).result.map Value.text

namespace Html

/-- The style attribute. There is none if no declaration is let through. -/
def styleAttributes (context : Context) (styles : List StyleDeclaration) :
    Except Failure (List (String × String)) := do
  let style ← (inlineStyle context styles).result
  pure (if style = "" then [] else [("style", style)])

def inputPart (context : Context) (name : String) : Option Expr → Except Failure Part
  | none => pure (.void "input" [("type", "text"), ("id", name)])
  | some placeholder => do
    let text ← placeholder.textIn context
    pure (.void "input" [("type", "text"), ("id", name), ("placeholder", text)])

/-- What an element stands for in a body. -/
def elementParts (context : Context) : Element → Except Failure (List Part)
  | .paragraph text styles => do
    let style ← styleAttributes context styles
    let text ← text.textIn context
    pure [.line "p" style text]
  | .button text none _ => do
    let text ← text.textIn context
    pure [.line "button" [] text]
  | .button text (some action) arguments => do
    let text ← text.textIn context
    let arguments ← (callArguments context arguments).result
    pure [.line "button" [("onclick", action ++ "(" ++ ", ".intercalate arguments ++ ")")] text]
  | .link url none => do
    let address ← url.textIn context
    pure [.line "a" [("href", address)] address]
  | .link url (some text) => do
    let address ← url.textIn context
    let text ← text.textIn context
    pure [.line "a" [("href", address)] text]
  | .textbox name placeholder none _ => do
    let input ← inputPart context name placeholder
    pure [input]
  | .textbox name placeholder (some label) labelAfter => do
    let input ← inputPart context name placeholder
    let text ← label.textIn context
    let label := Part.line "label" [("for", name)] text
    pure (if labelAfter then [input, label] else [label, input])
  | .linebreak => pure [.void "br" []]
  | .image imagePath altText styles => do
    let source ← imagePath.textIn context
    let style ← styleAttributes context styles
    pure [.void "img" ([("src", source), ("alt", altText.getD "")] ++ style)]
  | .heading level text styles => do
    let style ← styleAttributes context styles
    let text ← text.textIn context
    pure [.line (headingTag level) style text]
  | .topbar value fixed styles => do
    let style ← styleAttributes context styles
    let text ← value.textIn context
    pure [.block "header" ([("class", topbarClass fixed)] ++ style)
      [.block "nav" [] [.line "a" (style ++ [("href", "./")]) text]]]
  | .imported _ => pure []
  | .title _ => pure []
  | .icon _ => pure []
  | .popup _ => pure []

/-- What a node stands for in the head. -/
def headNodeParts : Node → Except Failure (List Part)
  | .element (.title text) => do
    let text ← text.textIn Context.empty
    pure [.line "title" [] text]
  | .element (.icon imagePath) => do
    let address ← imagePath.textIn Context.empty
    pure [.void "link" [("rel", "icon"), ("href", address)]]
  | _ => pure []

def headParts : List Node → Except Failure (List Part)
  | [] => pure []
  | node :: rest => do
    let parts ← headNodeParts node
    let others ← headParts rest
    pure (parts ++ others)

end Html

/-- What the nodes of a body stand for, in order. The use of a component stands
for what its body stands for, with the arguments bound where it is used. -/
inductive Document.BodyParts (document : Document) : Context → List Node → List Part → Prop where
  | nil {context : Context} : BodyParts document context [] []
  | element {context : Context} {e : Element} {rest : List Node} {parts others : List Part}
      (hElement : Html.elementParts context e = .ok parts)
      (hRest : BodyParts document context rest others) :
      BodyParts document context (.element e :: rest) (parts ++ others)
  | div {context : Context} {children rest : List Node} {inside others : List Part}
      (hChildren : BodyParts document context children inside)
      (hRest : BodyParts document context rest others) :
      BodyParts document context (.div children :: rest) (.block "div" [] inside :: others)
  | useComponent {context : Context} {name : String} {component : Component}
      {arguments : List Expr} {bindings : List Binding} {rest : List Node}
      {inside others : List Part}
      (hComponent : document.component? name = some component)
      (hBindings : (bindParameters context component.parameters arguments).result = .ok bindings)
      (hBody : BodyParts document (context.push ⟨name, bindings⟩) component.body inside)
      (hRest : BodyParts document context rest others) :
      BodyParts document context (.useComponent name arguments :: rest) (inside ++ others)

/-- The page: a head with what its nodes stand for, the style sheet and the
script, and a body with what its nodes stand for. -/
inductive Document.IsPageTree (document : Document) : Part → Prop where
  | intro {head body : List Part} (hHead : Html.headParts document.head = .ok head)
      (hBody : document.BodyParts Context.empty document.body body) :
      IsPageTree document (.block "html" []
        [.block "head" []
          (head ++ [.void "link" [("rel", "stylesheet"), ("href", "stylesheet.css")],
            .line "script" [("src", "script.js")] ""]),
        .block "body" [] body])

namespace Document

variable {document : Document} {context : Context} {nodes rest : List Node}
  {parts others : List Part}

/-- Nodes never stand for two things. -/
theorem BodyParts.unique (hParts : document.BodyParts context nodes parts)
    (hOthers : document.BodyParts context nodes others) : parts = others := by
  induction hParts generalizing others with
  | nil =>
      cases hOthers
      rfl
  | element hElement _ ihRest =>
      cases hOthers with
      | element hElement' hRest =>
          rw [Except.ok.inj (hElement.symm.trans hElement'), ihRest hRest]
  | div _ _ ihChildren ihRest =>
      cases hOthers with
      | div hChildren hRest => rw [ihChildren hChildren, ihRest hRest]
  | useComponent hComponent hBindings _ _ ihBody ihRest =>
      cases hOthers with
      | useComponent hComponent' hBindings' hBody hRest =>
          obtain rfl := Option.some.inj (hComponent.symm.trans hComponent')
          obtain rfl := Except.ok.inj (hBindings.symm.trans hBindings')
          rw [ihBody hBody, ihRest hRest]

theorem IsPageTree.unique {tree other : Part} (hTree : document.IsPageTree tree)
    (hOther : document.IsPageTree other) : tree = other := by
  obtain ⟨hHead, hBody⟩ := hTree
  obtain ⟨hHead', hBody'⟩ := hOther
  rw [Except.ok.inj (hHead.symm.trans hHead'), hBody.unique hBody']

theorem BodyParts.append (hParts : document.BodyParts context nodes parts)
    (hOthers : document.BodyParts context rest others) :
    document.BodyParts context (nodes ++ rest) (parts ++ others) := by
  induction hParts with
  | nil => exact hOthers
  | element hElement _ ihRest =>
      rw [List.append_assoc]
      exact .element hElement (ihRest hOthers)
  | div hChildren _ _ ihRest => exact .div hChildren (ihRest hOthers)
  | useComponent hComponent hBindings hBody _ _ ihRest =>
      rw [List.append_assoc]
      exact .useComponent hComponent hBindings hBody (ihRest hOthers)

end Document

end PageGen
