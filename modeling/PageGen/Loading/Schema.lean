import PageGen.Json.Value
import PageGen.Json.Skip

/-! Records in JSON. A record is written as an object, whose fields come in any
order, or as the array of its fields in the order of the schema. A field that
is absent gets the default of its type, if the type has one. -/
namespace PageGen

/-- The types that fields of some records can have. -/
class FieldTypes (τ : Type) where
  Value : τ → Type
  /-- What a field of this type is when it is absent, if it may be absent. -/
  default? : (type : τ) → Option (Value type)

/-- The fields of a record, with their names. -/
abbrev Schema (τ : Type) := List (String × τ)

namespace Schema

open Json

variable {τ : Type} [FieldTypes τ]

/-- A record: one value for each field. -/
def Values : Schema τ → Type
  | [] => Unit
  | (_, type) :: rest => FieldTypes.Value type × Values rest

/-- A record that is being read: the values that have been met. -/
def Slots : Schema τ → Type
  | [] => Unit
  | (_, type) :: rest => Option (FieldTypes.Value type) × Slots rest

def emptySlots : (schema : Schema τ) → Slots schema
  | [] => ()
  | (_, _) :: rest => (none, emptySlots rest)

/-- Puts the value of one more field into its slot. A key that is no field is
ignored, and a field that is there already is a fault. -/
def putField {m : Type → Type} [Monad m] (fail : {α : Type} → Fault → m α) (ignore : m Unit)
    (read : (type : τ) → m (FieldTypes.Value type)) (key : String) :
    (schema : Schema τ) → Slots schema → m (Slots schema)
  | [], slots => do
    ignore
    pure slots
  | (name, type) :: rest, (slot, slots) =>
    if name = key then
      match slot with
      | some _ => fail (.duplicateField name)
      | none => do
        let value ← read type
        pure (some value, slots)
    else do
      let following ← putField (m := m) fail ignore read key rest slots
      pure (slot, following)

/-- The record, once all fields have been met. The first that is absent and has
no default is a fault. -/
def fill : (schema : Schema τ) → Slots schema → Except Fault (Values schema)
  | [], _ => .ok ()
  | (name, type) :: rest, (slot, slots) => do
    let value ←
      match slot with
      | some value => .ok value
      | none =>
        match FieldTypes.default? type with
        | some value => .ok value
        | none => .error (.missingField name)
    let values ← fill rest slots
    pure (value, values)

/-- Reads the fields from the items of an array. The description of the record
is for a message about an array that ends too early. -/
def readItems (description : String) (read : (type : τ) → Reader (FieldTypes.Value type)) :
    (schema : Schema τ) → (count : Nat) → Reader (Values schema)
  | [], _ => pure ()
  | (_, type) :: rest, count => do
    let present ← Reader.nextItem (count == 0)
    if present then
      let value ← read type
      let values ← readItems description read rest (count + 1)
      pure (value, values)
    else
      match FieldTypes.default? type with
      | some value => do
        let values ← readItems description read rest count
        pure (value, values)
      | none => Reader.reject (.invalidLength count description)

def describe (name : String) (schema : Schema τ) : String :=
  name ++ " with " ++ elementCount schema.length

def read (name : String) (schema : Schema τ)
    (field : (room : Nat) → (type : τ) → Reader (FieldTypes.Value type)) (room : Nat) :
    Reader (Values schema) := do
  let start ← Reader.token
  match start with
  | .arrayStart =>
    Reader.array room fun room => readItems (describe name schema) (field room) schema 0
  | .objectStart =>
    Reader.object room fun room => do
      let slots ← Reader.entries
        (fun slots key =>
          putField (m := Reader) Reader.reject
            (do
              Reader.colon
              Reader.skip)
            (fun type => do
              Reader.colon
              field room type)
            key schema slots)
        true (emptySlots schema)
      Reader.ofExcept (fill schema slots)
  | other => Reader.mismatch other name

end Schema

end PageGen
