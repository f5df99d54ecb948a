import PageGen.Loading.Document

/-! The settings file that may lie beside a document. -/
namespace PageGen

open Json

structure Settings where
  /-- Where the generated files go, relative to the settings file. -/
  destination : Option String
  /-- The text one level of indentation is written with. -/
  indent : String
  failOnUnsupported : Bool
  deriving DecidableEq, Repr

namespace Settings

/-- The settings where there is no file. -/
def default : Settings := ⟨none, Options.default.indent, Options.default.failOnUnsupported⟩

def options (settings : Settings) : Options := ⟨settings.indent, settings.failOnUnsupported⟩

inductive Field where
  | optionalText
  | indent
  | flag
  deriving DecidableEq, Repr

abbrev Field.Value : Field → Type
  | .optionalText => Option String
  | .indent => String
  | .flag => Bool

instance : FieldTypes Field where
  Value := Field.Value
  default?
    | .optionalText => some (none : Option String)
    | .indent => some (default.indent : String)
    | .flag => some (default.failOnUnsupported : Bool)

def Field.read (_ : Nat) : (type : Field) → Reader type.Value
  | .optionalText => do
    match ← Reader.token with
    | .null => pure (none : Option String)
    | .string s => pure (some s)
    | other => Reader.mismatch other "a string"
  | .indent => Reader.text
  | .flag => do
    match ← Reader.token with
    | .boolean b => pure b
    | other => Reader.mismatch other "a boolean"

def schema : Schema Field :=
  [("destination", .optionalText), ("indent", .indent), ("failOnUnsupported", .flag)]

def read (room : Nat) : Reader Settings := do
  let (destination, indent, failOnUnsupported, ()) ←
    Schema.read "struct Config" schema Field.read room
  pure ⟨destination, indent, failOnUnsupported⟩

def ofText (text : String) : Except (Fault × Position) Settings :=
  Reader.run (read maximalNesting) text

end Settings

end PageGen
