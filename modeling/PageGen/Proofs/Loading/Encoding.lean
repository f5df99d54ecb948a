import Mathlib.Data.List.Forall2
import PageGen.Document
import PageGen.Json.Value

/-! Documents as JSON values. An object that stands for a part of a document may
have its fields in any order and any further fields besides. A list, an option or
a flag may be left out if it is empty, absent or off, and an absent option may
also be written as `null`. -/
namespace PageGen

namespace Json

/-- The values of all entries with one key. -/
def fieldValues (name : String) (entries : List (String × Json)) : List Json :=
  (entries.filter fun entry => entry.1 == name).map Prod.snd

/-- The object has this field once, with such a value. -/
def HasField (entries : List (String × Json)) (name : String) (encoded : Json → Prop) : Prop :=
  ∃ value, fieldValues name entries = [value] ∧ encoded value

/-- The object has this field once, with such a value, or the field is at its
default and the object does not have it. -/
def MayHaveField (entries : List (String × Json)) (name : String) (isDefault : Prop)
    (encoded : Json → Prop) : Prop :=
  HasField entries name encoded ∨ (isDefault ∧ fieldValues name entries = [])

/-- The object has this tag. -/
def HasTag (entries : List (String × Json)) (tag : String) : Prop :=
  HasField entries "$type" (· = .string tag)

/-- An object with entries like this. -/
def ObjectWith (fields : List (String × Json) → Prop) (json : Json) : Prop :=
  ∃ entries, json = .object entries ∧ fields entries

def TextEncodedBy (text : String) (json : Json) : Prop := json = .string text

def FlagEncodedBy (flag : Bool) (json : Json) : Prop := json = .boolean flag

def LevelEncodedBy (level : UInt8) (json : Json) : Prop := json = .integer level.toNat

/-- A number is a double, or an integer that the double is nearest to. -/
def NumberEncodedBy (x : Float) (json : Json) : Prop :=
  json = .float x ∨ ∃ n, json = .integer n ∧ integerFloat n = x

def OptionEncodedBy {α : Type} (encoded : α → Json → Prop) : Option α → Json → Prop
  | none, json => json = .null
  | some value, json => encoded value json

def ListEncodedBy {α : Type} (encoded : α → Json → Prop) (values : List α) (json : Json) : Prop :=
  ∃ items, json = .array items ∧ List.Forall₂ encoded values items

end Json

open Json

def Operator.EncodedBy : Operator → Json → Prop
  | .add, json => json = .string "+"
  | .subtract, json => json = .string "-"
  | .multiply, json => json = .string "*"
  | .divide, json => json = .string "/"

/-- A kind that is not known is the tag itself, so it is none of the known tags. -/
def Expr.EncodedBy : Expr → Json → Prop
  | .string value => ObjectWith fun entries =>
      HasTag entries "StringExpression" ∧ HasField entries "value" (TextEncodedBy value)
  | .number value => ObjectWith fun entries =>
      HasTag entries "NumberExpression" ∧ HasField entries "value" (NumberEncodedBy value)
  | .symbol name => ObjectWith fun entries =>
      HasTag entries "SymbolReference" ∧ HasField entries "symbol" (TextEncodedBy name)
  | .operation left operator right => ObjectWith fun entries =>
      HasTag entries "Operation" ∧ HasField entries "left" left.EncodedBy ∧
        HasField entries "operator" operator.EncodedBy ∧ HasField entries "right" right.EncodedBy
  | .unrecognized kind => ObjectWith fun entries =>
      HasTag entries kind ∧
        kind ∉ ["StringExpression", "NumberExpression", "SymbolReference", "Operation"]

def StyleDeclaration.EncodedBy (style : StyleDeclaration) : Json → Prop :=
  ObjectWith fun entries =>
    HasField entries "property" (TextEncodedBy style.property) ∧
      HasField entries "value" style.value.EncodedBy

section Fields

variable (entries : List (String × Json))

def MayHaveExpr (name : String) (expr : Option Expr) : Prop :=
  MayHaveField entries name (expr = none) (OptionEncodedBy Expr.EncodedBy expr)

def MayHaveText (name : String) (text : Option String) : Prop :=
  MayHaveField entries name (text = none) (OptionEncodedBy TextEncodedBy text)

def MayHaveFlag (name : String) (flag : Bool) : Prop :=
  MayHaveField entries name (flag = false) (FlagEncodedBy flag)

def MayHaveList {α : Type} (encoded : α → Json → Prop) (name : String) (values : List α) : Prop :=
  MayHaveField entries name (values = []) (ListEncodedBy encoded values)

end Fields

/-- The entries of an object that stands for an element. -/
def Element.EncodedIn (entries : List (String × Json)) : Element → Prop
  | .title text => HasTag entries "Title" ∧ HasField entries "text" text.EncodedBy
  | .icon imagePath => HasTag entries "Icon" ∧ HasField entries "imagePath" imagePath.EncodedBy
  | .paragraph text styles =>
      HasTag entries "Paragraph" ∧ HasField entries "text" text.EncodedBy ∧
        MayHaveList entries StyleDeclaration.EncodedBy "styles" styles
  | .button text action arguments =>
      HasTag entries "Button" ∧ HasField entries "text" text.EncodedBy ∧
        MayHaveText entries "action" action ∧
        MayHaveList entries Expr.EncodedBy "arguments" arguments
  | .link url text =>
      HasTag entries "Link" ∧ HasField entries "url" url.EncodedBy ∧
        MayHaveExpr entries "text" text
  | .textbox name placeholder label labelAfter =>
      HasTag entries "Textbox" ∧ HasField entries "name" (TextEncodedBy name) ∧
        MayHaveExpr entries "placeholder" placeholder ∧ MayHaveExpr entries "label" label ∧
        MayHaveFlag entries "labelAfter" labelAfter
  | .linebreak => HasTag entries "Linebreak"
  | .image imagePath altText styles =>
      HasTag entries "Image" ∧ HasField entries "imagePath" imagePath.EncodedBy ∧
        MayHaveText entries "altText" altText ∧
        MayHaveList entries StyleDeclaration.EncodedBy "styles" styles
  | .heading level text styles =>
      HasTag entries "Heading" ∧ HasField entries "level" (LevelEncodedBy level) ∧
        HasField entries "text" text.EncodedBy ∧
        MayHaveList entries StyleDeclaration.EncodedBy "styles" styles
  | .topbar value fixed styles =>
      HasTag entries "Topbar" ∧ HasField entries "value" value.EncodedBy ∧
        MayHaveFlag entries "fixed" fixed ∧
        MayHaveList entries StyleDeclaration.EncodedBy "styles" styles
  | .imported path => HasTag entries "Import" ∧ HasField entries "path" (TextEncodedBy path)
  | .popup text => HasTag entries "Popup" ∧ HasField entries "text" text.EncodedBy

mutual

def Node.EncodedBy : Node → Json → Prop
  | .element e => ObjectWith fun entries => e.EncodedIn entries
  | .div children => ObjectWith fun entries =>
      HasTag entries "Div" ∧
        MayHaveField entries "children" (children = []) fun json =>
          ∃ items, json = .array items ∧ Node.AllEncodedBy children items
  | .useComponent component arguments => ObjectWith fun entries =>
      HasTag entries "UseComponent" ∧ HasField entries "component" (TextEncodedBy component) ∧
        MayHaveList entries Expr.EncodedBy "arguments" arguments

def Node.AllEncodedBy : List Node → List Json → Prop
  | [], [] => True
  | node :: nodes, item :: items => node.EncodedBy item ∧ Node.AllEncodedBy nodes items
  | _, _ => False

end

def ParamType.EncodedBy : ParamType → Json → Prop
  | .string, json => json = .string "string"
  | .number, json => json = .string "number"

def Parameter.EncodedBy (parameter : Parameter) : Json → Prop :=
  ObjectWith fun entries =>
    HasField entries "name" (TextEncodedBy parameter.name) ∧
      HasField entries "type" parameter.type.EncodedBy

def Component.EncodedBy (component : Component) : Json → Prop :=
  ObjectWith fun entries =>
    HasField entries "name" (TextEncodedBy component.name) ∧
      MayHaveList entries Parameter.EncodedBy "parameters" component.parameters ∧
      MayHaveList entries Node.EncodedBy "body" component.body

def ScriptFunction.EncodedBy (script : ScriptFunction) : Json → Prop :=
  ObjectWith fun entries =>
    HasField entries "name" (TextEncodedBy script.name) ∧
      MayHaveList entries Parameter.EncodedBy "parameters" script.parameters ∧
      MayHaveList entries Node.EncodedBy "body" script.body

def Document.EncodedBy (document : Document) : Json → Prop :=
  ObjectWith fun entries =>
    MayHaveList entries Node.EncodedBy "headElements" document.head ∧
      MayHaveList entries Node.EncodedBy "bodyElements" document.body ∧
      MayHaveList entries ScriptFunction.EncodedBy "scriptFunctions" document.scripts ∧
      MayHaveList entries Component.EncodedBy "components" document.components

end PageGen
