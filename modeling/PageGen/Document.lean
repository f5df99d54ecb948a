/-! The document that a page is generated from: expressions, nodes, and the
declarations of components and script functions. Head, body and script
statements share one closed set of node kinds; each target decides which of
them it writes. -/
namespace PageGen

inductive Operator where
  | add
  | subtract
  | multiply
  | divide
  deriving DecidableEq, Repr

def Operator.symbol : Operator → String
  | .add => "+"
  | .subtract => "-"
  | .multiply => "*"
  | .divide => "/"

/-- All operators, in the order in which messages list them. -/
def Operator.all : List Operator := [.add, .subtract, .multiply, .divide]

/-- A text, attribute value or argument. An expression of a kind that is not
known is kept with its kind, so that evaluation can name it. -/
inductive Expr where
  | string (value : String)
  | number (value : Float)
  | symbol (name : String)
  | operation (left : Expr) (operator : Operator) (right : Expr)
  | unrecognized (kind : String)

/-- The tag that marks an expression of this form in a serialized document. -/
def Expr.kind : Expr → String
  | .string _ => "StringExpression"
  | .number _ => "NumberExpression"
  | .symbol _ => "SymbolReference"
  | .operation _ _ _ => "Operation"
  | .unrecognized kind => kind

/-- The declared type of a parameter. It is carried along and never enforced. -/
inductive ParamType where
  | string
  | number
  deriving DecidableEq, Repr

def ParamType.name : ParamType → String
  | .string => "string"
  | .number => "number"

/-- All parameter types, in the order in which messages list them. -/
def ParamType.all : List ParamType := [.string, .number]

structure Parameter where
  name : String
  type : ParamType
  deriving DecidableEq, Repr

/-- One `property: value` pair attached to a styled element. -/
structure StyleDeclaration where
  property : String
  value : Expr

/-- The kinds of nodes, in the order of their indices in a serialized document. -/
inductive NodeKind where
  | title
  | icon
  | div
  | paragraph
  | button
  | link
  | textbox
  | linebreak
  | image
  | heading
  | useComponent
  | topbar
  | imported
  | popup
  deriving DecidableEq, Repr

/-- The tag that marks a node of this kind in a serialized document. -/
def NodeKind.name : NodeKind → String
  | .title => "Title"
  | .icon => "Icon"
  | .div => "Div"
  | .paragraph => "Paragraph"
  | .button => "Button"
  | .link => "Link"
  | .textbox => "Textbox"
  | .linebreak => "Linebreak"
  | .image => "Image"
  | .heading => "Heading"
  | .useComponent => "UseComponent"
  | .topbar => "Topbar"
  | .imported => "Import"
  | .popup => "Popup"

/-- All node kinds, in the order of their indices. -/
def NodeKind.all : List NodeKind :=
  [.title, .icon, .div, .paragraph, .button, .link, .textbox, .linebreak, .image, .heading,
    .useComponent, .topbar, .imported, .popup]

/-- The kind with a given tag, if there is one. -/
def NodeKind.ofName? (name : String) : Option NodeKind :=
  NodeKind.all.find? fun kind => kind.name == name

/-- A node that stands for itself: it holds no nodes and names no component. -/
inductive Element where
  | title (text : Expr)
  | icon (imagePath : Expr)
  | paragraph (text : Expr) (styles : List StyleDeclaration)
  /-- A button. Its action names a script function, which is called with the arguments. -/
  | button (text : Expr) (action : Option String) (arguments : List Expr)
  /-- A link. Without a text it shows its address. -/
  | link (url : Expr) (text : Option Expr)
  | textbox (name : String) (placeholder label : Option Expr) (labelAfter : Bool)
  | linebreak
  | image (imagePath : Expr) (altText : Option String) (styles : List StyleDeclaration)
  | heading (level : UInt8) (text : Expr) (styles : List StyleDeclaration)
  /-- A page header with a single link home. -/
  | topbar (value : Expr) (fixed : Bool) (styles : List StyleDeclaration)
  /-- Another document to be included. No target writes it. -/
  | imported (path : String)
  /-- A statement of a script function that shows a message. -/
  | popup (text : Expr)

/-- A node of the tree: an element, a container, or the use of a component. -/
inductive Node where
  | element (element : Element)
  | div (children : List Node)
  | useComponent (component : String) (arguments : List Expr)

def Element.kind : Element → NodeKind
  | .title _ => .title
  | .icon _ => .icon
  | .paragraph _ _ => .paragraph
  | .button _ _ _ => .button
  | .link _ _ => .link
  | .textbox _ _ _ _ => .textbox
  | .linebreak => .linebreak
  | .image _ _ _ => .image
  | .heading _ _ _ => .heading
  | .topbar _ _ _ => .topbar
  | .imported _ => .imported
  | .popup _ => .popup

def Node.kind : Node → NodeKind
  | .element e => e.kind
  | .div _ => .div
  | .useComponent _ _ => .useComponent

/-- A reusable piece of a body. -/
structure Component where
  name : String
  parameters : List Parameter
  body : List Node

/-- A script function. Its statements are nodes. -/
structure ScriptFunction where
  name : String
  parameters : List Parameter
  body : List Node

structure Document where
  head : List Node
  body : List Node
  scripts : List ScriptFunction
  components : List Component

namespace Document

/-- The document without nodes and declarations. -/
def empty : Document := ⟨[], [], [], []⟩

def isEmpty (document : Document) : Bool :=
  document.head.isEmpty && document.body.isEmpty && document.scripts.isEmpty &&
    document.components.isEmpty

theorem isEmpty_iff (document : Document) : document.isEmpty = true ↔ document = empty := by
  cases document
  simp [isEmpty, empty, and_assoc]

/-- The first declaration of a component, the only one that its name ever stands for. -/
def component? (document : Document) (name : String) : Option Component :=
  document.components.find? fun component => component.name == name

end Document

structure Options where
  /-- The text one level of indentation is written with. -/
  indent : String
  /-- Whether a node that a target cannot write is an error or only reported. -/
  failOnUnsupported : Bool
  deriving DecidableEq, Repr

/-- Two spaces, and unsupported nodes only reported. -/
def Options.default : Options := ⟨"  ", false⟩

end PageGen
