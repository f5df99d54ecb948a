import PageGen.Json.Cursor

/-! String literals. Characters stand for themselves except for the quote, the
backslash and control characters; escapes name UTF-16 units, and two of them
make up a character beyond the first 65536. -/
namespace PageGen

namespace Json

def hexDigit? (c : Char) : Option Nat :=
  if '0' ≤ c ∧ c ≤ '9' then some (c.toNat - '0'.toNat)
  else if 'a' ≤ c ∧ c ≤ 'f' then some (c.toNat - 'a'.toNat + 10)
  else if 'A' ≤ c ∧ c ≤ 'F' then some (c.toNat - 'A'.toNat + 10)
  else none

def byteCount : List Char → Nat
  | [] => 0
  | c :: rest => c.utf8Size + byteCount rest

/-- Reads four hexadecimal digits. Four bytes are consumed before they are
judged, whatever characters they belong to. -/
def scanUnit (cursor : Cursor) : Scan Nat :=
  match cursor.rest with
  | a :: b :: c :: d :: rest =>
    match hexDigit? a, hexDigit? b, hexDigit? c, hexDigit? d with
    | some a, some b, some c, some d =>
      .done (((a * 16 + b) * 16 + c) * 16 + d) ⟨rest, cursor.offset + 4⟩
    | _, _, _, _ => .fault .invalidEscape (cursor.offset + 4)
  | few =>
    if 4 ≤ byteCount few then .fault .invalidEscape (cursor.offset + 4)
    else .fault .endInString (cursor.offset + byteCount few)

theorem length_scanUnit_lt {cursor next : Cursor} {value : Nat}
    (hScan : scanUnit cursor = .done value next) :
    next.rest.length < cursor.rest.length := by
  unfold scanUnit at hScan
  split at hScan
  · rename_i hRest
    split at hScan
    · simp only [Scan.done.injEq] at hScan
      simp only [← hScan.2, hRest, List.length_cons]
      omega
    · simp at hScan
  · split at hScan <;> simp at hScan

def shortEscape? (c : Char) : Option Char :=
  if c = '\x22' then some '\x22'
  else if c = '\x5c' then some '\x5c'
  else if c = '/' then some '/'
  else if c = 'b' then some '\x08'
  else if c = 'f' then some '\x0c'
  else if c = 'n' then some '\n'
  else if c = 'r' then some '\r'
  else if c = 't' then some '\t'
  else none

def isHighSurrogate (unit : Nat) : Bool := decide (0xD800 ≤ unit) && decide (unit ≤ 0xDBFF)

def isLowSurrogate (unit : Nat) : Bool := decide (0xDC00 ≤ unit) && decide (unit ≤ 0xDFFF)

/-- The character that two surrogates make up. -/
def joinSurrogates (high low : Nat) : Char :=
  Char.ofNat ((high - 0xD800) * 0x400 + (low - 0xDC00) + 0x10000)

/-- Reads what comes after `\u`: one unit, or two that make up a character. -/
def scanHexEscape (cursor : Cursor) : Scan Char :=
  match scanUnit cursor with
  | .fault fault offset => .fault fault offset
  | .done unit next =>
    if isLowSurrogate unit then .fault .loneSurrogate next.offset
    else if isHighSurrogate unit then
      match next.rest with
      | [] => .fault .endInString next.offset
      | '\x5c' :: [] => .fault .endInString (next.offset + 1)
      | '\x5c' :: 'u' :: rest =>
        match scanUnit ⟨rest, next.offset + 2⟩ with
        | .fault fault offset => .fault fault offset
        | .done second last =>
          if isLowSurrogate second then .done (joinSurrogates unit second) last
          else .fault .loneSurrogate last.offset
      | '\x5c' :: _ :: _ => .fault .endOfHexEscape (next.offset + 2)
      | _ :: _ => .fault .endOfHexEscape (next.offset + 1)
    else .done (Char.ofNat unit) next

theorem length_scanHexEscape_lt {cursor next : Cursor} {value : Char}
    (hScan : scanHexEscape cursor = .done value next) :
    next.rest.length < cursor.rest.length := by
  unfold scanHexEscape at hScan
  split at hScan
  · simp at hScan
  · rename_i unit first hFirst
    have hShorter := length_scanUnit_lt hFirst
    split at hScan
    · simp at hScan
    · split at hScan
      · split at hScan
        · simp at hScan
        · simp at hScan
        · rename_i rest hRest
          split at hScan
          · simp at hScan
          · rename_i second last hSecond
            have hLast := length_scanUnit_lt hSecond
            split at hScan
            · simp only [Scan.done.injEq] at hScan
              simp only [hRest, List.length_cons] at hShorter
              simp only [← hScan.2]
              simp only at hLast
              omega
            · simp at hScan
        · simp at hScan
        · simp at hScan
      · simp only [Scan.done.injEq] at hScan
        simp only [← hScan.2]
        exact hShorter

def scanEscape (cursor : Cursor) : Scan Char :=
  match cursor.rest with
  | [] => .fault .endInString cursor.offset
  | c :: _ =>
    match shortEscape? c with
    | some meant => .done meant cursor.next
    | none =>
      if c = 'u' then scanHexEscape cursor.next
      else .fault .invalidEscape (cursor.offset + 1)

theorem length_scanEscape_lt {cursor next : Cursor} {value : Char}
    (hScan : scanEscape cursor = .done value next) :
    next.rest.length < cursor.rest.length := by
  unfold scanEscape at hScan
  split at hScan
  · simp at hScan
  · rename_i c rest hRest
    have hNext : cursor.next.rest.length < cursor.rest.length := by
      simp [Cursor.next, hRest]
    split at hScan
    · simp only [Scan.done.injEq] at hScan
      simpa only [← hScan.2] using hNext
    · split at hScan
      · exact Nat.lt_trans (length_scanHexEscape_lt hScan) hNext
      · simp at hScan

/-- Reads a string literal from behind its opening quote to behind its closing
quote. The characters read so far come in reverse order. -/
def scanString (read : List Char) (cursor : Cursor) : Scan (List Char) :=
  match _hRest : cursor.rest with
  | [] => .fault .endInString cursor.offset
  | c :: _ =>
    if c = '\x22' then .done read.reverse cursor.next
    else if c = '\x5c' then
      match _hEscape : scanEscape cursor.next with
      | .fault fault offset => .fault fault offset
      | .done meant next => scanString (meant :: read) next
    else if c.toNat < 0x20 then .fault .controlCharacter (cursor.offset + 1)
    else scanString (c :: read) cursor.next
termination_by cursor.rest.length
decreasing_by
  · have hShorter := length_scanEscape_lt _hEscape
    simp only [Cursor.next, _hRest, List.length_cons] at hShorter ⊢
    omega
  · simp [Cursor.next, _hRest]

theorem length_scanString_lt {read value : List Char} {cursor next : Cursor}
    (hScan : scanString read cursor = .done value next) :
    next.rest.length < cursor.rest.length := by
  fun_induction scanString read cursor with
  | case1 => simp at hScan
  | case2 read cursor rest hRest =>
      simp only [Scan.done.injEq] at hScan
      simp [← hScan.2, Cursor.next, hRest]
  | case3 => simp at hScan
  | case4 read cursor rest meant following hEscape hRest _ ih =>
      have hShorter := length_scanEscape_lt hEscape
      have hTail := ih hScan
      simp only [Cursor.next, hRest, List.length_cons] at hShorter ⊢
      omega
  | case5 => simp at hScan
  | case6 read cursor c rest hRest _ _ _ ih =>
      have hTail := ih hScan
      simp only [Cursor.next, hRest, List.length_cons] at hTail ⊢
      omega

/-- Passes over what comes after a backslash, without pairing surrogates. -/
def skipEscape (cursor : Cursor) : Scan Unit :=
  match cursor.rest with
  | [] => .fault .endInString cursor.offset
  | c :: _ =>
    if (shortEscape? c).isSome then .done () cursor.next
    else if c = 'u' then
      match scanUnit cursor.next with
      | .fault fault offset => .fault fault offset
      | .done _ next => .done () next
    else .fault .invalidEscape (cursor.offset + 1)

theorem length_skipEscape_lt {cursor next : Cursor} {value : Unit}
    (hScan : skipEscape cursor = .done value next) :
    next.rest.length < cursor.rest.length := by
  unfold skipEscape at hScan
  split at hScan
  · simp at hScan
  · rename_i c rest hRest
    have hNext : cursor.next.rest.length < cursor.rest.length := by
      simp [Cursor.next, hRest]
    split at hScan
    · simp only [Scan.done.injEq] at hScan
      simpa only [← hScan.2] using hNext
    · split at hScan
      · split at hScan
        · simp at hScan
        · rename_i hUnit
          simp only [Scan.done.injEq] at hScan
          rw [← hScan.2]
          exact Nat.lt_trans (length_scanUnit_lt hUnit) hNext
      · simp at hScan

/-- Passes over a string literal from behind its opening quote. A control
character is reported where it stands. -/
def skipString (cursor : Cursor) : Scan Unit :=
  match _hRest : cursor.rest with
  | [] => .fault .endInString cursor.offset
  | c :: _ =>
    if c = '\x22' then .done () cursor.next
    else if c = '\x5c' then
      match _hEscape : skipEscape cursor.next with
      | .fault fault offset => .fault fault offset
      | .done _ next => skipString next
    else if c.toNat < 0x20 then .fault .controlCharacter cursor.offset
    else skipString cursor.next
termination_by cursor.rest.length
decreasing_by
  · have hShorter := length_skipEscape_lt _hEscape
    simp only [Cursor.next, _hRest, List.length_cons] at hShorter ⊢
    omega
  · simp [Cursor.next, _hRest]

theorem length_skipString_lt {value : Unit} {cursor next : Cursor}
    (hScan : skipString cursor = .done value next) :
    next.rest.length < cursor.rest.length := by
  fun_induction skipString cursor with
  | case1 => simp at hScan
  | case2 cursor rest hRest =>
      simp only [Scan.done.injEq] at hScan
      simp [← hScan.2, Cursor.next, hRest]
  | case3 => simp at hScan
  | case4 cursor rest _ following hEscape hRest _ ih =>
      have hShorter := length_skipEscape_lt hEscape
      have hTail := ih hScan
      simp only [Cursor.next, hRest, List.length_cons] at hShorter ⊢
      omega
  | case5 => simp at hScan
  | case6 cursor c rest hRest _ _ _ ih =>
      have hTail := ih hScan
      simp only [Cursor.next, hRest, List.length_cons] at hTail ⊢
      omega

end Json

end PageGen
