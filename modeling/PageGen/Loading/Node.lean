import PageGen.Loading.Schema
import PageGen.Loading.Expr

/-! Nodes from JSON. A node is an object with a `$type` and the fields of its
kind, or an array that starts with the type. It is read whole as a value before
its fields are looked at; only the type of an outermost node is judged on the
way. -/
namespace PageGen

open Json

/-- The types of the fields of nodes and style declarations. -/
inductive NodeField where
  | expr
  | optionalExpr
  | exprs
  | text
  | optionalText
  | flag
  | level
  | nodes
  | styles
  deriving DecidableEq, Repr

abbrev NodeField.Value : NodeField → Type
  | .expr => Expr
  | .optionalExpr => Option Expr
  | .exprs => List Expr
  | .text => String
  | .optionalText => Option String
  | .flag => Bool
  | .level => UInt8
  | .nodes => List Node
  | .styles => List StyleDeclaration

/-- Lists are empty and options absent by default, and a flag is off. -/
def NodeField.default? : (type : NodeField) → Option type.Value
  | .expr => none
  | .optionalExpr => some none
  | .exprs => some []
  | .text => none
  | .optionalText => some none
  | .flag => some false
  | .level => none
  | .nodes => some []
  | .styles => some []

instance : FieldTypes NodeField where
  Value := NodeField.Value
  default? := NodeField.default?

def StyleDeclaration.schema : Schema NodeField := [("property", .text), ("value", .expr)]

def NodeKind.schema : NodeKind → Schema NodeField
  | .title => [("text", .expr)]
  | .icon => [("imagePath", .expr)]
  | .div => [("children", .nodes)]
  | .paragraph => [("text", .expr), ("styles", .styles)]
  | .button => [("text", .expr), ("action", .optionalText), ("arguments", .exprs)]
  | .link => [("url", .expr), ("text", .optionalExpr)]
  | .textbox =>
    [("name", .text), ("placeholder", .optionalExpr), ("label", .optionalExpr),
      ("labelAfter", .flag)]
  | .linebreak => []
  | .image => [("imagePath", .expr), ("altText", .optionalText), ("styles", .styles)]
  | .heading => [("level", .level), ("text", .expr), ("styles", .styles)]
  | .useComponent => [("component", .text), ("arguments", .exprs)]
  | .topbar => [("value", .expr), ("fixed", .flag), ("styles", .styles)]
  | .imported => [("path", .text)]
  | .popup => [("text", .expr)]

def Node.ofFields : (kind : NodeKind) → kind.schema.Values → Node
  | .title, (text, ()) => .element (.title text)
  | .icon, (imagePath, ()) => .element (.icon imagePath)
  | .div, (children, ()) => .div children
  | .paragraph, (text, styles, ()) => .element (.paragraph text styles)
  | .button, (text, action, arguments, ()) => .element (.button text action arguments)
  | .link, (url, text, ()) => .element (.link url text)
  | .textbox, (name, placeholder, label, labelAfter, ()) =>
    .element (.textbox name placeholder label labelAfter)
  | .linebreak, () => .element .linebreak
  | .image, (imagePath, altText, styles, ()) => .element (.image imagePath altText styles)
  | .heading, (level, text, styles, ()) => .element (.heading level text styles)
  | .useComponent, (component, arguments, ()) => .useComponent component arguments
  | .topbar, (value, fixed, styles, ()) => .element (.topbar value fixed styles)
  | .imported, (path, ()) => .element (.imported path)
  | .popup, (text, ()) => .element (.popup text)

def NodeKind.ofName (name : String) : Except Fault NodeKind :=
  match NodeKind.ofName? name with
  | some kind => .ok kind
  | none => .error (.unknownVariant name (NodeKind.all.map NodeKind.name))

/-- The kind of a node inside another node: a tag, or an index. -/
def NodeKind.ofJson : Json → Except Fault NodeKind
  | .string name => NodeKind.ofName name
  | .integer n =>
    if n < 0 then (Json.integer n).mismatch "variant identifier"
    else
      match NodeKind.all[n.toNat]? with
      | some kind => .ok kind
      | none => .error (.invalidValue (.integer n) "variant index 0 <= i < 14")
  | other => other.mismatch "variant identifier"

/-- The kind of a node among its entries. -/
def NodeKind.ofEntries (met : Option NodeKind) : List (String × Json) → Except Fault NodeKind
  | [] => require typeTag met
  | (key, value) :: rest =>
    if key = typeTag then
      match met with
      | some _ => .error (.duplicateField typeTag)
      | none => do
        let kind ← NodeKind.ofJson value
        NodeKind.ofEntries (some kind) rest
    else NodeKind.ofEntries met rest

/-- The name of the fields of a kind in messages. -/
def NodeKind.describe (kind : NodeKind) : String := "struct variant Node::" ++ kind.name

/-- A heading level: an integer of eight bits. -/
def levelOfJson : Json → Except Fault UInt8
  | .integer n =>
    if 0 ≤ n ∧ n ≤ 255 then .ok n.toNat.toUInt8 else .error (.invalidValue (.integer n) "u8")
  | other => other.mismatch "u8"

def flagOfJson : Json → Except Fault Bool
  | .boolean b => .ok b
  | other => other.mismatch "a boolean"

mutual

/-- Reads a node that stands inside another node. -/
def Node.ofJson (value : Json) : Except Fault Node :=
  match value with
  | .object entries => do
    let kind ← NodeKind.ofEntries none entries
    Node.ofEntries kind entries
  | .array [] => .error (.missingField typeTag)
  | .array (tag :: items) => do
    let kind ← NodeKind.ofJson tag
    Node.ofItems kind items
  | other => other.mismatch "internally tagged enum Node"
termination_by (sizeOf value, 0)

/-- Reads the fields of a node from its entries, among which the tag is ignored. -/
def Node.ofEntries (kind : NodeKind) (entries : List (String × Json)) : Except Fault Node := do
  let slots ← slotsOfEntries kind.schema kind.schema.emptySlots entries
  let values ← kind.schema.fill slots
  pure (Node.ofFields kind values)
termination_by (sizeOf entries, 2)

/-- Reads the fields of a node from the items behind its tag. -/
def Node.ofItems (kind : NodeKind) (items : List Json) : Except Fault Node := do
  let values ← valuesOfItems (kind.schema.describe kind.describe) kind.schema 0 items
  pure (Node.ofFields kind values)
termination_by (sizeOf items, 2 + kind.schema.length)

def slotsOfEntries (schema : Schema NodeField) (slots : schema.Slots)
    (entries : List (String × Json)) : Except Fault schema.Slots :=
  match entries with
  | [] => .ok slots
  | (key, value) :: rest => do
    let following ← schema.putField (m := Except Fault) Except.error (pure ())
      (fun type => fieldOfJson type value) key slots
    slotsOfEntries schema following rest
termination_by (sizeOf entries, 1)

/-- Reads fields from the items of an array, of which some have been read. -/
def valuesOfItems (description : String) (schema : Schema NodeField) (count : Nat)
    (items : List Json) : Except Fault schema.Values :=
  match schema, items with
  | [], [] => .ok ()
  | [], rest =>
    .error (.invalidLength (count + rest.length) (elementCount count ++ " in sequence"))
  | (_, type) :: fields, [] => do
    let value ←
      match FieldTypes.default? type with
      | some value => .ok value
      | none => .error (.invalidLength count description)
    let values ← valuesOfItems description fields count []
    pure (value, values)
  | (_, type) :: fields, item :: rest => do
    let value ← fieldOfJson type item
    let values ← valuesOfItems description fields (count + 1) rest
    pure (value, values)
termination_by (sizeOf items, 1 + schema.length)

def fieldOfJson (type : NodeField) (value : Json) : Except Fault type.Value :=
  match type, value with
  | .expr, value => Expr.ofJson value
  | .optionalExpr, .null => .ok none
  | .optionalExpr, value => (Expr.ofJson value).map some
  | .exprs, .array items => items.mapM Expr.ofJson
  | .exprs, other => other.mismatch "a sequence"
  | .text, value => asText value
  | .optionalText, .null => .ok none
  | .optionalText, value => (asText value).map some
  | .flag, value => flagOfJson value
  | .level, value => levelOfJson value
  | .nodes, .array items => nodesOfItems items
  | .nodes, other => other.mismatch "a sequence"
  | .styles, .array items => stylesOfItems items
  | .styles, other => other.mismatch "a sequence"
termination_by (sizeOf value, 0)

def nodesOfItems (items : List Json) : Except Fault (List Node) :=
  match items with
  | [] => .ok []
  | item :: rest => do
    let node ← Node.ofJson item
    let nodes ← nodesOfItems rest
    pure (node :: nodes)
termination_by (sizeOf items, 1)

def stylesOfItems (items : List Json) : Except Fault (List StyleDeclaration) :=
  match items with
  | [] => .ok []
  | item :: rest => do
    let style ← StyleDeclaration.ofJson item
    let styles ← stylesOfItems rest
    pure (style :: styles)
termination_by (sizeOf items, 1)

def StyleDeclaration.ofJson (value : Json) : Except Fault StyleDeclaration := do
  let (property, value, ()) ←
    match value with
    | .object entries => do
      let slots ← slotsOfEntries StyleDeclaration.schema StyleDeclaration.schema.emptySlots entries
      StyleDeclaration.schema.fill slots
    | .array items =>
      valuesOfItems (StyleDeclaration.schema.describe "struct StyleDeclaration")
        StyleDeclaration.schema 0 items
    | other => other.mismatch "struct StyleDeclaration"
  pure ⟨property, value⟩
termination_by (sizeOf value, 0)

end

/-- The inside of a node: its entries, or the items behind its tag. -/
inductive NodeContent where
  | entries (entries : List (String × Json))
  | items (items : List Json)

def Node.ofContent (kind : NodeKind) : NodeContent → Except Fault Node
  | .entries entries => Node.ofEntries kind entries
  | .items items => Node.ofItems kind items

namespace Json.Reader

/-- The tag of an outermost node, which has to be a string. -/
def nodeKind : Reader NodeKind := do
  match ← token with
  | .string name =>
    match NodeKind.ofName name with
    | .ok kind => pure kind
    | .error fault => failHere fault
  | other => mismatch other "variant identifier"

/-- The entries of an outermost node, with its tag, which is not among them. -/
def nodeEntries (room : Nat) : Reader (NodeKind × NodeContent) := do
  let (met, reversed) ← entries
    (fun (met, reversed) key =>
      if key = typeTag then
        match met with
        | some _ => reject (.duplicateField typeTag)
        | none => do
          colon
          let kind ← nodeKind
          pure (some kind, reversed)
      else do
        colon
        let entry ← value room
        pure (met, (key, entry) :: reversed))
    true ((none : Option NodeKind), ([] : List (String × Json)))
  let kind ← ofExcept (require typeTag met)
  pure (kind, .entries reversed.reverse)

/-- The items of an outermost node, the first of which is its tag. -/
def nodeItems (room : Nat) : Reader (NodeKind × NodeContent) := do
  let present ← nextItem true
  if present then
    let kind ← nodeKind
    let reversed ← items
      (fun read => do
        let item ← value room
        pure (item :: read)) false []
    pure (kind, .items reversed.reverse)
  else reject (.missingField typeTag)

def node (room : Nat) : Reader Node := do
  let start ← token
  let (kind, content) ←
    match start with
    | .objectStart => object room nodeEntries
    | .arrayStart => array room nodeItems
    | other => mismatch other "internally tagged enum Node"
  ofExcept (Node.ofContent kind content)

end Json.Reader

end PageGen
