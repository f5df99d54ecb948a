import PageGen.Loading.Node
import PageGen.Text.Blank

/-! Documents from JSON text. The document, its declarations and their
parameters are read as the text goes; unknown fields are passed over. -/
namespace PageGen

open Json

namespace Json.Reader

def text : Reader String := do
  match ← token with
  | .string s => pure s
  | other => mismatch other "a string"

/-- An array of values that are read one by one. -/
def listOf {α : Type} (item : Nat → Reader α) (room : Nat) : Reader (List α) := do
  match ← token with
  | .arrayStart => array room fun room => list (item room)
  | other => mismatch other "a sequence"

/-- A variant name. An unknown one is reported behind it. -/
def variant {α : Type} (known : List (String × α)) : Reader α := do
  match ← token with
  | .string name =>
    match known.lookup name with
    | some value => pure value
    | none => failHere (.unknownVariant name (known.map Prod.fst))
  | other => mismatch other "variant identifier"

/-- A value that says nothing. -/
def unit : Reader Unit := do
  match ← token with
  | .null => pure ()
  | other => mismatch other "unit"

/-- A variant: its name, or an object with the name as its one key and nothing
behind it. -/
def choice {α : Type} (known : List (String × α)) (room : Nat) : Reader α := do
  match ← peekToken with
  | none => failNext .endInValue
  | some '\x22' => variant known
  | some '\x7b' =>
    entering room fun _ => do
      let present ← nextEntry true
      if present then
        let value ← variant known
        colon
        unit
        match ← peekToken with
        | some '\x7d' => do
          advance
          pure value
        | some _ => failHere .expectedValue
        | none => failHere .endInObject
      else failNext .expectedValue
  | some _ => failNext .expectedValue

end Json.Reader

inductive ParameterField where
  | text
  | paramType
  deriving DecidableEq, Repr

abbrev ParameterField.Value : ParameterField → Type
  | .text => String
  | .paramType => ParamType

instance : FieldTypes ParameterField where
  Value := ParameterField.Value
  default? _ := none

def paramTypeNames : List (String × ParamType) :=
  ParamType.all.map fun type => (type.name, type)

def ParameterField.read (room : Nat) : (type : ParameterField) → Reader type.Value
  | .text => Reader.text
  | .paramType => Reader.choice paramTypeNames room

def Parameter.schema : Schema ParameterField := [("name", .text), ("type", .paramType)]

def Parameter.read (room : Nat) : Reader Parameter := do
  let (name, type, ()) ←
    Schema.read "struct Parameter" Parameter.schema ParameterField.read room
  pure ⟨name, type⟩

/-- The types of the fields of the declaration of a component or a script function. -/
inductive DeclarationField where
  | text
  | parameters
  | nodes
  deriving DecidableEq, Repr

abbrev DeclarationField.Value : DeclarationField → Type
  | .text => String
  | .parameters => List Parameter
  | .nodes => List Node

instance : FieldTypes DeclarationField where
  Value := DeclarationField.Value
  default?
    | .text => none
    | .parameters => some ([] : List Parameter)
    | .nodes => some ([] : List Node)

def DeclarationField.read (room : Nat) : (type : DeclarationField) → Reader type.Value
  | .text => Reader.text
  | .parameters => Reader.listOf Parameter.read room
  | .nodes => Reader.listOf Reader.node room

def declarationSchema : Schema DeclarationField :=
  [("name", .text), ("parameters", .parameters), ("body", .nodes)]

def Component.read (room : Nat) : Reader Component := do
  let (name, parameters, body, ()) ←
    Schema.read "struct Component" declarationSchema DeclarationField.read room
  pure ⟨name, parameters, body⟩

def ScriptFunction.read (room : Nat) : Reader ScriptFunction := do
  let (name, parameters, body, ()) ←
    Schema.read "struct ScriptFunction" declarationSchema DeclarationField.read room
  pure ⟨name, parameters, body⟩

inductive DocumentField where
  | nodes
  | scripts
  | components
  deriving DecidableEq, Repr

abbrev DocumentField.Value : DocumentField → Type
  | .nodes => List Node
  | .scripts => List ScriptFunction
  | .components => List Component

instance : FieldTypes DocumentField where
  Value := DocumentField.Value
  default?
    | .nodes => some ([] : List Node)
    | .scripts => some ([] : List ScriptFunction)
    | .components => some ([] : List Component)

def DocumentField.read (room : Nat) : (type : DocumentField) → Reader type.Value
  | .nodes => Reader.listOf Reader.node room
  | .scripts => Reader.listOf ScriptFunction.read room
  | .components => Reader.listOf Component.read room

def Document.schema : Schema DocumentField :=
  [("headElements", .nodes), ("bodyElements", .nodes), ("scriptFunctions", .scripts),
    ("components", .components)]

def Document.read (room : Nat) : Reader Document := do
  let (head, body, scripts, components, ()) ←
    Schema.read "struct Document" Document.schema DocumentField.read room
  pure ⟨head, body, scripts, components⟩

inductive LoadFailure where
  /-- The text holds nothing but white space. -/
  | empty
  | malformed (fault : Fault) (position : Position)

def LoadFailure.message : LoadFailure → String
  | .empty => "Empty AST input"
  | .malformed fault position =>
    "Malformed AST at line " ++ integerText position.line ++ ", column " ++
      integerText position.column ++ ": " ++ fault.message ++ position.text

def Document.ofText (text : String) : Except LoadFailure Document :=
  if isBlankText text.toList then .error .empty
  else
    (Reader.run (Document.read maximalNesting) text).mapError fun (fault, position) =>
      .malformed fault position

end PageGen
