import PageGen.Json.Reader

/-! JSON as a value. The entries of an object keep their order, and a key may
occur more than once. -/
namespace PageGen

inductive Json where
  | null
  | boolean (b : Bool)
  | integer (n : Int)
  | float (x : Float)
  | string (s : String)
  | array (items : List Json)
  | object (entries : List (String × Json))

namespace Json

/-- The value as it is named where it is of the wrong type. -/
def found : Json → Found
  | .null => .null
  | .boolean b => .boolean b
  | .integer n => .integer n
  | .float x => .float x
  | .string s => .string s
  | .array _ => .sequence
  | .object _ => .map

def mismatch {α : Type} (value : Json) (expected : String) : Except Fault α :=
  .error (.invalidType value.found expected)

def last? (key : String) : List (String × Json) → Option Json
  | [] => none
  | (k, value) :: rest =>
    match last? key rest with
    | some later => some later
    | none => if k = key then some value else none

theorem sizeOf_last?_lt {key : String} {entries : List (String × Json)} {value : Json}
    (hLast : last? key entries = some value) : sizeOf value < sizeOf entries := by
  induction entries with
  | nil => simp [last?] at hLast
  | cons entry rest ih =>
      obtain ⟨k, first⟩ := entry
      unfold last? at hLast
      split at hLast
      · rename_i later hLater
        simp only [Option.some.injEq] at hLast
        have hRest := ih (hLast ▸ hLater)
        simp only [List.cons.sizeOf_spec]
        omega
      · split at hLast
        · simp only [Option.some.injEq] at hLast
          simp only [List.cons.sizeOf_spec, Prod.mk.sizeOf_spec, hLast]
          omega
        · simp at hLast

/-- The value of a field, if this is an object that has it. Of several entries
with one key the last counts. -/
def field? (value : Json) (key : String) : Option Json :=
  match value with
  | .object entries => last? key entries
  | _ => none

/-- The double nearest to an integer of at most 64 bits. -/
def integerFloat (n : Int) : Float := withSign (decide (n < 0)) (significandFloat n.natAbs)

namespace Reader

/-- Reads a value whole, whatever it is. Containers may be nested as deep as
there is room for. -/
def value (room : Nat) : Reader Json := do
  let start ← token
  match start, room with
  | .null, _ => pure .null
  | .boolean b, _ => pure (.boolean b)
  | .number (.integer n), _ => pure (.integer n)
  | .number (.float x), _ => pure (.float x)
  | .string s, _ => pure (.string s)
  | .arrayStart, 0 => failNext .nestedTooDeep
  | .objectStart, 0 => failNext .nestedTooDeep
  | .arrayStart, room + 1 => do
    advance
    let items ← inside leaveArray (list (value room))
    pure (.array items)
  | .objectStart, room + 1 => do
    advance
    let reversed ← inside leaveObject (entries (fun read key => do
      colon
      let entry ← value room
      pure ((key, entry) :: read)) true [])
    pure (.object reversed.reverse)

/-- Reads a text that holds one value and nothing else. -/
def run {α : Type} (reader : Reader α) (text : String) : Except (Fault × Position) α :=
  match reader (Cursor.start text) with
  | .done value next _ =>
    let behind := next.blanks
    match behind.rest with
    | [] => .ok value
    | _ :: _ => .error (.trailingCharacters, .ofOffset text behind.peeked)
  | .unplaced fault next _ => .error (fault, .ofOffset text next.offset)
  | .placed fault offset => .error (fault, .ofOffset text offset)

end Reader

/-- How many containers may be open at once. -/
def maximalNesting : Nat := 127

def ofText (text : String) : Except (Fault × Position) Json :=
  Reader.run (Reader.value maximalNesting) text

end Json

end PageGen
