import PageGen.Json.Fault

/-! A place in a JSON text that is being read, and scanners, which read from
there on without regard to what is due. -/
namespace PageGen

namespace Json

/-- The characters that are left, and the number of bytes before them. -/
structure Cursor where
  rest : List Char
  offset : Nat

namespace Cursor

def start (text : String) : Cursor := ⟨text.toList, 0⟩

/-- One character further. At the end this is the same place. -/
def next (cursor : Cursor) : Cursor :=
  match cursor.rest with
  | [] => cursor
  | c :: rest => ⟨rest, cursor.offset + c.utf8Size⟩

/-- The offset that is reported for a character that was looked at and not
consumed: one byte further, if there is one. -/
def peeked (cursor : Cursor) : Nat :=
  match cursor.rest with
  | [] => cursor.offset
  | _ :: _ => cursor.offset + 1

/-- The white space between tokens. -/
def isBlank (c : Char) : Bool := c == ' ' || c == '\n' || c == '\t' || c == '\r'

/-- Past white space. -/
def skipBlanks : List Char → Nat → Cursor
  | [], offset => ⟨[], offset⟩
  | c :: rest, offset =>
    if isBlank c then skipBlanks rest (offset + 1) else ⟨c :: rest, offset⟩

@[inherit_doc skipBlanks]
def blanks (cursor : Cursor) : Cursor := skipBlanks cursor.rest cursor.offset

theorem length_next_le (cursor : Cursor) : cursor.next.rest.length ≤ cursor.rest.length := by
  unfold next
  split <;> simp_all

theorem length_skipBlanks_le (rest : List Char) (offset : Nat) :
    (skipBlanks rest offset).rest.length ≤ rest.length := by
  induction rest generalizing offset with
  | nil => simp [skipBlanks]
  | cons c rest ih =>
      unfold skipBlanks
      split
      · exact Nat.le_trans (ih _) (by simp)
      · simp

theorem length_blanks_le (cursor : Cursor) : cursor.blanks.rest.length ≤ cursor.rest.length :=
  length_skipBlanks_le _ _

/-- Behind a token's first character less is left than before the token. -/
theorem length_next_blanks_lt {cursor : Cursor} {c : Char} {rest : List Char}
    (hRest : cursor.blanks.rest = c :: rest) :
    cursor.blanks.next.rest.length < cursor.rest.length := by
  have hBlanks := cursor.length_blanks_le
  have hStep : cursor.blanks.next.rest.length < cursor.blanks.rest.length := by
    simp [next, hRest]
  omega

end Cursor

/-- A step that consumes nothing goes on to a later stage. -/
theorem lex_of_le_of_lt {length before : Nat} {rank rankBefore : Nat} (hLength : length ≤ before)
    (hRank : rank < rankBefore) :
    Prod.Lex (· < ·) (· < ·) (length, rank) (before, rankBefore) := by
  rcases Nat.lt_or_eq_of_le hLength with hLess | hEqual
  · exact Prod.Lex.left _ _ hLess
  · rw [hEqual]
    exact Prod.Lex.right _ hRank

/-- What a scanner found: something, with the place after it, or a fault at an offset. -/
inductive Scan (α : Type) where
  | done (value : α) (next : Cursor)
  | fault (fault : Fault) (offset : Nat)

def scanWord : List Char → Cursor → Scan Unit
  | [], cursor => .done () cursor
  | expected :: more, cursor =>
    match cursor.rest with
    | [] => .fault .endInValue cursor.offset
    | c :: _ =>
      if c = expected then scanWord more cursor.next
      else .fault .expectedWord (cursor.offset + 1)

theorem length_scanWord_le {word : List Char} {cursor next : Cursor} {value : Unit}
    (hScan : scanWord word cursor = .done value next) :
    next.rest.length ≤ cursor.rest.length := by
  induction word generalizing cursor with
  | nil =>
      simp only [scanWord, Scan.done.injEq] at hScan
      simp [hScan.2]
  | cons expected more ih =>
      unfold scanWord at hScan
      split at hScan
      · simp at hScan
      · split at hScan
        · exact Nat.le_trans (ih hScan) (Cursor.length_next_le cursor)
        · simp at hScan

end Json

end PageGen
