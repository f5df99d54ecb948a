import PageGen.Json.Reader

/-! Passing over a value that nothing needs. Only the brackets, commas, colons
and tokens are looked at: nesting may be as deep as it likes, numbers as large,
and surrogates need no partner. -/
namespace PageGen

namespace Json

/-- A container that has been opened and not closed yet. -/
inductive Bracket where
  | array
  | object
  deriving DecidableEq, Repr

namespace Bracket

def closing : Bracket → Char
  | .array => ']'
  | .object => '\x7d'

/-- The fault of a text that ends in the container. -/
def ended : Bracket → Fault
  | .array => .endInList
  | .object => .endInObject

/-- The fault of anything but a comma or the closing bracket behind a value. -/
def unfinished : Bracket → Fault
  | .array => .expectedListEnd
  | .object => .expectedObjectEnd

end Bracket

def skipKey (cursor : Cursor) : Scan Unit :=
  let ahead := cursor.blanks
  match ahead.rest with
  | [] => .fault .endInObject ahead.offset
  | c :: _ =>
    if c = '\x22' then
      match skipString ahead.next with
      | .fault fault offset => .fault fault offset
      | .done _ next =>
        let behind := next.blanks
        match behind.rest with
        | [] => .fault .endInObject behind.offset
        | d :: _ => if d = ':' then .done () behind.next else .fault .expectedColon behind.peeked
    else .fault .keyNotString ahead.peeked

/-- Passes over whatever comes in front of a value in a container. -/
def skipToValue (bracket : Bracket) (cursor : Cursor) : Scan Unit :=
  match bracket with
  | .array => .done () cursor
  | .object => skipKey cursor

/-- Passes over a value that is no container and starts with the given character. -/
def skipScalar (c : Char) (cursor : Cursor) : Scan Unit :=
  if c = 'n' then scanWord "ull".toList cursor.next
  else if c = 't' then scanWord "rue".toList cursor.next
  else if c = 'f' then scanWord "alse".toList cursor.next
  else if c = '-' then skipNumber cursor.next
  else if c = '\x22' then skipString cursor.next
  else if c.isDigit then skipNumber cursor
  else .fault .expectedValue cursor.peeked

theorem length_skipKey_le {cursor next : Cursor} {value : Unit}
    (hScan : skipKey cursor = .done value next) : next.rest.length ≤ cursor.rest.length := by
  unfold skipKey at hScan
  simp only at hScan
  split at hScan
  · simp at hScan
  · split at hScan
    · split at hScan
      · simp at hScan
      · rename_i hString
        split at hScan
        · simp at hScan
        · split at hScan
          · simp only [Scan.done.injEq] at hScan
            rw [← hScan.2]
            have hBlanks := cursor.length_blanks_le
            have hNext := cursor.blanks.length_next_le
            have hShorter := length_skipString_lt hString
            refine Nat.le_trans (Cursor.length_next_le _) ?_
            refine Nat.le_trans (Cursor.length_blanks_le _) ?_
            omega
          · simp at hScan
    · simp at hScan

theorem length_skipToValue_le {bracket : Bracket} {cursor next : Cursor} {value : Unit}
    (hScan : skipToValue bracket cursor = .done value next) :
    next.rest.length ≤ cursor.rest.length := by
  cases bracket with
  | array =>
      simp only [skipToValue, Scan.done.injEq] at hScan
      simp [hScan.2]
  | object => exact length_skipKey_le hScan

theorem length_skipScalar_le {c : Char} {cursor next : Cursor} {value : Unit}
    (hScan : skipScalar c cursor = .done value next) :
    next.rest.length ≤ cursor.rest.length := by
  have hNext := cursor.length_next_le
  unfold skipScalar at hScan
  split at hScan
  · exact Nat.le_trans (length_scanWord_le hScan) hNext
  · split at hScan
    · exact Nat.le_trans (length_scanWord_le hScan) hNext
    · split at hScan
      · exact Nat.le_trans (length_scanWord_le hScan) hNext
      · split at hScan
        · exact Nat.le_trans (length_skipNumber_le hScan) hNext
        · split at hScan
          · exact Nat.le_trans (Nat.le_of_lt (length_skipString_lt hScan)) hNext
          · split at hScan
            · exact length_skipNumber_le hScan
            · simp at hScan

/-- Where the passing over stands. -/
inductive Stage where
  | beforeValue
  | opened (bracket : Bracket)
  | behindValue

/-- The order in which stages follow one another without a character between them. -/
def Stage.rank : Stage → Nat
  | .opened _ => 2
  | .beforeValue => 1
  | .behindValue => 0

/-- Passes over a value and all containers that are open around it, the
innermost first. -/
def skipOn (stage : Stage) (enclosing : List Bracket) (cursor : Cursor) : Scan Unit :=
  let ahead := cursor.blanks
  match stage, enclosing with
  | .behindValue, [] => .done () cursor
  | .behindValue, bracket :: outer =>
    match _hRest : ahead.rest with
    | [] => .fault bracket.ended ahead.offset
    | c :: _ =>
      if c = ',' then
        match _hKey : skipToValue bracket ahead.next with
        | .fault fault offset => .fault fault offset
        | .done _ next => skipOn .beforeValue (bracket :: outer) next
      else if c = bracket.closing then skipOn .behindValue outer ahead.next
      else .fault bracket.unfinished ahead.peeked
  | .opened bracket, outer =>
    match _hRest : ahead.rest with
    | [] => .fault bracket.ended ahead.offset
    | c :: _ =>
      if c = bracket.closing then skipOn .behindValue outer ahead.next
      else
        match _hKey : skipToValue bracket ahead with
        | .fault fault offset => .fault fault offset
        | .done _ next => skipOn .beforeValue (bracket :: outer) next
  | .beforeValue, outer =>
    match _hRest : ahead.rest with
    | [] => .fault .endInValue ahead.offset
    | c :: _ =>
      if c = '[' then skipOn (.opened .array) outer ahead.next
      else if c = '\x7b' then skipOn (.opened .object) outer ahead.next
      else
        match _hScalar : skipScalar c ahead with
        | .fault fault offset => .fault fault offset
        | .done _ next => skipOn .behindValue outer next
termination_by (cursor.rest.length, stage.rank)
decreasing_by
  · exact Prod.Lex.left _ _ (Nat.lt_of_le_of_lt (length_skipToValue_le _hKey)
      (Cursor.length_next_blanks_lt _hRest))
  · exact Prod.Lex.left _ _ (Cursor.length_next_blanks_lt _hRest)
  · exact Prod.Lex.left _ _ (Cursor.length_next_blanks_lt _hRest)
  · exact lex_of_le_of_lt (Nat.le_trans (length_skipToValue_le _hKey) cursor.length_blanks_le)
      (by simp [Stage.rank])
  · exact Prod.Lex.left _ _ (Cursor.length_next_blanks_lt _hRest)
  · exact Prod.Lex.left _ _ (Cursor.length_next_blanks_lt _hRest)
  · exact lex_of_le_of_lt (Nat.le_trans (length_skipScalar_le _hScalar) cursor.length_blanks_le)
      (by simp [Stage.rank])

theorem length_skipOn_le {stage : Stage} {enclosing : List Bracket} {cursor next : Cursor}
    {value : Unit} (hScan : skipOn stage enclosing cursor = .done value next) :
    next.rest.length ≤ cursor.rest.length := by
  fun_induction skipOn stage enclosing cursor with
  | case1 => simp_all
  | case4 cursor ahead bracket outer rest _ _ hKey hRest ih =>
      exact Nat.le_trans (ih hScan) (Nat.le_trans (length_skipToValue_le hKey)
        (Nat.le_of_lt (Cursor.length_next_blanks_lt hRest)))
  | case5 cursor ahead bracket outer rest hRest _ ih =>
      exact Nat.le_trans (ih hScan) (Nat.le_of_lt (Cursor.length_next_blanks_lt hRest))
  | case8 cursor ahead bracket outer rest hRest ih =>
      exact Nat.le_trans (ih hScan) (Nat.le_of_lt (Cursor.length_next_blanks_lt hRest))
  | case10 cursor ahead bracket outer c rest _ _ _ _ hKey ih =>
      exact Nat.le_trans (ih hScan)
        (Nat.le_trans (length_skipToValue_le hKey) cursor.length_blanks_le)
  | case12 cursor ahead outer rest hRest ih =>
      exact Nat.le_trans (ih hScan) (Nat.le_of_lt (Cursor.length_next_blanks_lt hRest))
  | case13 cursor ahead outer rest hRest _ ih =>
      exact Nat.le_trans (ih hScan) (Nat.le_of_lt (Cursor.length_next_blanks_lt hRest))
  | case15 cursor ahead outer c rest _ _ _ _ _ hScalar ih =>
      exact Nat.le_trans (ih hScan)
        (Nat.le_trans (length_skipScalar_le hScalar) cursor.length_blanks_le)
  | _ => simp at hScan

def Reader.skip : Reader Unit := Reader.ofScan (skipOn .beforeValue []) length_skipOn_le

end Json

end PageGen
