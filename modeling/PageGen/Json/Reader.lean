import PageGen.Json.Text
import PageGen.Json.Number

/-! Readers: computations that consume a JSON text. A reader never goes back,
which its result shows, so that whatever repeats a reader behind a comma ends.

A fault of the text itself has a place. A fault of what the text means, found
when a value has been read already, gets its place from the innermost array or
object that is being read: the reader first tries to leave that container. -/
namespace PageGen

namespace Json

/-- What a reader that started at a place came to. -/
inductive Outcome (start : Cursor) (α : Type) where
  | done (value : α) (next : Cursor) (hNext : next.rest.length ≤ start.rest.length)
  /-- A fault that gets its place from the container around it. -/
  | unplaced (fault : Fault) (next : Cursor) (hNext : next.rest.length ≤ start.rest.length)
  | placed (fault : Fault) (offset : Nat)

/-- An outcome, seen from an earlier place. -/
def Outcome.from {start later : Cursor} {α : Type} (outcome : Outcome later α)
    (hLater : later.rest.length ≤ start.rest.length) : Outcome start α :=
  match outcome with
  | .done value next hNext => .done value next (Nat.le_trans hNext hLater)
  | .unplaced fault next hNext => .unplaced fault next (Nat.le_trans hNext hLater)
  | .placed fault offset => .placed fault offset

def Reader (α : Type) := (start : Cursor) → Outcome start α

namespace Reader

variable {α β σ : Type}

instance : Monad Reader where
  pure value := fun start => .done value start (Nat.le_refl _)
  bind reader next := fun start =>
    match reader start with
    | .done value later hLater => (next value later).from hLater
    | .unplaced fault later hLater => .unplaced fault later hLater
    | .placed fault offset => .placed fault offset

/-- A fault at the place that has been reached. -/
def failHere (fault : Fault) : Reader α := fun start => .placed fault start.offset

/-- A fault at the character that comes next. -/
def failNext (fault : Fault) : Reader α := fun start => .placed fault start.peeked

/-- A fault that gets its place from the container around it. -/
def reject (fault : Fault) : Reader α := fun start => .unplaced fault start (Nat.le_refl _)

/-- Takes over what was found out about a value that has been read. -/
def ofExcept (result : Except Fault α) : Reader α :=
  match result with
  | .ok value => pure value
  | .error fault => reject fault

def ofScan (scan : Cursor → Scan α)
    (hScan : ∀ {cursor next value}, scan cursor = .done value next →
      next.rest.length ≤ cursor.rest.length) : Reader α := fun start =>
  match hDone : scan start with
  | .done value next => .done value next (hScan hDone)
  | .fault fault offset => .placed fault offset

def blanks : Reader Unit := fun start => .done () start.blanks start.length_blanks_le

def advance : Reader Unit := fun start => .done () start.next start.length_next_le

def peek : Reader (Option Char) := fun start => .done start.rest.head? start (Nat.le_refl _)

/-- The character that comes next after white space, which is passed. -/
def peekToken : Reader (Option Char) := do
  blanks
  peek

def word (characters : String) : Reader Unit :=
  ofScan (scanWord characters.toList) length_scanWord_le

def stringTail : Reader String := do
  let characters ← ofScan (scanString []) fun hScan => Nat.le_of_lt (length_scanString_lt hScan)
  pure (String.ofList characters)

def numberTail (negative : Bool) : Reader Number :=
  ofScan (scanNumber negative) length_scanNumber_le

end Reader

/-- A value that is no container, or the kind of container that starts here. -/
inductive Token where
  | null
  | boolean (b : Bool)
  | number (n : Number)
  | string (s : String)
  /-- A `[`, which is not consumed. -/
  | arrayStart
  /-- A `{`, which is not consumed. -/
  | objectStart

/-- The token as it is named where it is of the wrong type. -/
def Token.found : Token → Found
  | .null => .null
  | .boolean b => .boolean b
  | .number (.integer n) => .integer n
  | .number (.float x) => .float x
  | .string s => .string s
  | .arrayStart => .sequence
  | .objectStart => .map

namespace Reader

variable {α β σ : Type}

def token : Reader Token := do
  match ← peekToken with
  | none => failNext .endInValue
  | some 'n' => do
    advance
    word "ull"
    pure .null
  | some 't' => do
    advance
    word "rue"
    pure (.boolean true)
  | some 'f' => do
    advance
    word "alse"
    pure (.boolean false)
  | some '-' => do
    advance
    let n ← numberTail true
    pure (.number n)
  | some '\x22' => do
    advance
    let s ← stringTail
    pure (.string s)
  | some '[' => pure .arrayStart
  | some '\x7b' => pure .objectStart
  | some c =>
    if c.isDigit then do
      let n ← numberTail false
      pure (.number n)
    else failNext .expectedValue

/-- A fault for a token of the wrong type: behind it, or before the bracket
that it is. -/
def mismatch (found : Token) (expected : String) : Reader α :=
  failHere (.invalidType found.found expected)

/-- Where the attempt to leave a container has come to, and what it met instead
of the closing bracket. -/
structure Leaving (start : Cursor) where
  next : Cursor
  hNext : next.rest.length ≤ start.rest.length
  complaint : Option (Fault × Nat)

/-- Tries to leave an array. A comma is consumed, and it is a fault. -/
def leaveArray (start : Cursor) : Leaving start :=
  let ahead := start.blanks
  match ahead.rest with
  | [] => ⟨ahead, start.length_blanks_le, some (.endInList, ahead.offset)⟩
  | ']' :: _ =>
    ⟨ahead.next, Nat.le_trans ahead.length_next_le start.length_blanks_le, none⟩
  | ',' :: _ =>
    let beyond := ahead.next.blanks
    let fault : Fault :=
      match beyond.rest with
      | ']' :: _ => .trailingComma
      | _ => .trailingCharacters
    ⟨beyond,
      Nat.le_trans ahead.next.length_blanks_le
        (Nat.le_trans ahead.length_next_le start.length_blanks_le),
      some (fault, beyond.peeked)⟩
  | _ :: _ => ⟨ahead, start.length_blanks_le, some (.trailingCharacters, ahead.peeked)⟩

/-- Tries to leave an object. A comma is a fault, and it is not consumed. -/
def leaveObject (start : Cursor) : Leaving start :=
  let ahead := start.blanks
  match ahead.rest with
  | [] => ⟨ahead, start.length_blanks_le, some (.endInObject, ahead.offset)⟩
  | '\x7d' :: _ =>
    ⟨ahead.next, Nat.le_trans ahead.length_next_le start.length_blanks_le, none⟩
  | ',' :: _ => ⟨ahead, start.length_blanks_le, some (.trailingComma, ahead.peeked)⟩
  | _ :: _ => ⟨ahead, start.length_blanks_le, some (.trailingCharacters, ahead.peeked)⟩

/-- Reads the inside of a container and leaves it. A fault without a place gets
the one to which the attempt to leave has come. -/
def inside (leave : (start : Cursor) → Leaving start) (body : Reader α) : Reader α :=
  fun start =>
    match body start with
    | .done value later hLater =>
      match leave later with
      | ⟨next, hNext, none⟩ => .done value next (Nat.le_trans hNext hLater)
      | ⟨_, _, some (fault, offset)⟩ => .placed fault offset
    | .unplaced fault later _ => .placed fault (leave later).next.offset
    | .placed fault offset => .placed fault offset

/-- Enters a container whose opening bracket comes next, if there is room for
one more level. The body is told how much room it has. -/
def entering (room : Nat) (body : Nat → Reader α) : Reader α :=
  match room with
  | 0 => failNext .nestedTooDeep
  | room + 1 => do
    advance
    body room

def array (room : Nat) (body : Nat → Reader α) : Reader α :=
  entering room fun room => inside leaveArray (body room)

def object (room : Nat) (body : Nat → Reader α) : Reader α :=
  entering room fun room => inside leaveObject (body room)

/-- Whether there is one more item in the array. Behind the first item there
has to be a comma, which is consumed. -/
def nextItem (first : Bool) : Reader Bool := fun start =>
  let ahead := start.blanks
  have hAhead := start.length_blanks_le
  match ahead.rest with
  | [] => .placed .endInList ahead.offset
  | c :: _ =>
    if c = ']' then .done false ahead hAhead
    else if first then .done true ahead hAhead
    else if c = ',' then
      let item := ahead.next.blanks
      match item.rest with
      | [] => .placed .endInValue item.offset
      | d :: _ =>
        if d = ']' then .placed .trailingComma item.peeked
        else .done true item
          (Nat.le_trans ahead.next.length_blanks_le (Nat.le_trans ahead.length_next_le hAhead))
    else .placed .expectedListEnd ahead.peeked

/-- Every item but the first lies behind a comma. -/
theorem length_nextItem_lt {start next : Cursor} {hNext : next.rest.length ≤ start.rest.length}
    (hItem : nextItem false start = .done true next hNext) :
    next.rest.length < start.rest.length := by
  unfold nextItem at hItem
  simp only at hItem
  split at hItem
  · simp at hItem
  · rename_i c rest hRest
    split at hItem
    · simp at hItem
    · split at hItem
      · rename_i hFalse
        simp at hFalse
      · split at hItem
        · split at hItem
          · simp at hItem
          · split at hItem
            · simp at hItem
            · simp only [Outcome.done.injEq] at hItem
              rw [← hItem.2]
              have hBlanks := start.blanks.next.length_blanks_le
              have hAhead := start.length_blanks_le
              have hShorter : start.blanks.next.rest.length < start.blanks.rest.length := by
                simp [Cursor.next, hRest]
              omega
        · simp at hItem

/-- Reads all items of the array one after another, from a state to a state. -/
def items (step : σ → Reader σ) (first : Bool) (state : σ) : Reader σ := fun start =>
  match _hItem : nextItem first start with
  | .done true next hNext =>
    match step state next with
    | .done following later hLater =>
      (items step false following later).from (Nat.le_trans hLater hNext)
    | .unplaced fault later hLater => .unplaced fault later (Nat.le_trans hLater hNext)
    | .placed fault offset => .placed fault offset
  | .done false next hNext => .done state next hNext
  | .unplaced fault next hNext => .unplaced fault next hNext
  | .placed fault offset => .placed fault offset
termination_by start => (start.rest.length, first.toNat)
decreasing_by
  cases first with
  | true => exact lex_of_le_of_lt (Nat.le_trans hLater hNext) Nat.zero_lt_one
  | false => exact Prod.Lex.left _ _ (Nat.lt_of_le_of_lt hLater (length_nextItem_lt _hItem))

def list (item : Reader α) : Reader (List α) := do
  let reversed ← items (fun read => do
    let value ← item
    pure (value :: read)) true []
  pure reversed.reverse

/-- Whether there is one more entry in the object, whose key then comes next.
Behind the first entry there has to be a comma, which is consumed. -/
def nextEntry (first : Bool) : Reader Bool := fun start =>
  let ahead := start.blanks
  have hAhead := start.length_blanks_le
  match ahead.rest with
  | [] => .placed .endInObject ahead.offset
  | c :: _ =>
    if c = '\x7d' then .done false ahead hAhead
    else if first then
      if c = '\x22' then .done true ahead hAhead else .placed .keyNotString ahead.peeked
    else if c = ',' then
      let entry := ahead.next.blanks
      match entry.rest with
      | [] => .placed .endInValue entry.offset
      | d :: _ =>
        if d = '\x22' then
          .done true entry
            (Nat.le_trans ahead.next.length_blanks_le (Nat.le_trans ahead.length_next_le hAhead))
        else if d = '\x7d' then .placed .trailingComma entry.peeked
        else .placed .keyNotString entry.peeked
    else .placed .expectedObjectEnd ahead.peeked

/-- Every entry but the first lies behind a comma. -/
theorem length_nextEntry_lt {start next : Cursor} {hNext : next.rest.length ≤ start.rest.length}
    (hEntry : nextEntry false start = .done true next hNext) :
    next.rest.length < start.rest.length := by
  unfold nextEntry at hEntry
  simp only at hEntry
  split at hEntry
  · simp at hEntry
  · rename_i c rest hRest
    split at hEntry
    · simp at hEntry
    · split at hEntry
      · rename_i hFalse
        simp at hFalse
      · split at hEntry
        · split at hEntry
          · simp at hEntry
          · split at hEntry
            · simp only [Outcome.done.injEq] at hEntry
              rw [← hEntry.2]
              have hBlanks := start.blanks.next.length_blanks_le
              have hAhead := start.length_blanks_le
              have hShorter : start.blanks.next.rest.length < start.blanks.rest.length := by
                simp [Cursor.next, hRest]
              omega
            · split at hEntry <;> simp at hEntry
        · simp at hEntry

def key : Reader String := do
  advance
  stringTail

def colon : Reader Unit := do
  match ← peekToken with
  | some ':' => advance
  | some _ => failNext .expectedColon
  | none => failNext .endInObject

/-- Reads all entries of the object one after another, from a state to a state.
A step gets the key, and its colon is still to be read. -/
def entries (step : σ → String → Reader σ) (first : Bool) (state : σ) : Reader σ := fun start =>
  match _hEntry : nextEntry first start with
  | .done true next hNext =>
    match (key >>= step state) next with
    | .done following later hLater =>
      (entries step false following later).from (Nat.le_trans hLater hNext)
    | .unplaced fault later hLater => .unplaced fault later (Nat.le_trans hLater hNext)
    | .placed fault offset => .placed fault offset
  | .done false next hNext => .done state next hNext
  | .unplaced fault next hNext => .unplaced fault next hNext
  | .placed fault offset => .placed fault offset
termination_by start => (start.rest.length, first.toNat)
decreasing_by
  cases first with
  | true => exact lex_of_le_of_lt (Nat.le_trans hLater hNext) Nat.zero_lt_one
  | false => exact Prod.Lex.left _ _ (Nat.lt_of_le_of_lt hLater (length_nextEntry_lt _hEntry))

end Reader

end Json

end PageGen
