import PageGen.Json.Skip
import PageGen.Proofs.Json.Written

/-! Scanners on text as it may be written. Each of them gets from the start of
what is written to its end, whatever follows, and finds what the text was
written for. Where the text lies does not matter. -/
namespace PageGen.Json

/-- From one rest of a text to another the scanner finds this value. -/
def Scans {α : Type} (scan : Cursor → Scan α) (before : List Char) (value : α)
    (after : List Char) : Prop :=
  ∀ offset, ∃ later, scan ⟨before, offset⟩ = .done value ⟨after, later⟩

/-- What comes next, if anything does, is no blank. -/
def StartsToken (rest : List Char) : Prop := ∀ c ∈ rest.head?, Cursor.isBlank c = false

/-- What comes next, if anything does, cannot belong to a number. -/
def EndsNumber (rest : List Char) : Prop :=
  ∀ c ∈ rest.head?, c.isDigit = false ∧ c ≠ '.' ∧ c ≠ 'e' ∧ c ≠ 'E'

variable {rest : List Char}

theorem Blanks.isBlank {blanks : List Char} (hBlanks : Blanks blanks) :
    ∀ c ∈ blanks, Cursor.isBlank c = true := by
  intro c hMem
  have hBlank := hBlanks c hMem
  simp only [List.mem_cons, List.not_mem_nil, or_false] at hBlank
  rcases hBlank with rfl | rfl | rfl | rfl <;> rfl

theorem skipBlanks_append {blanks : List Char} (hBlanks : Blanks blanks)
    (hRest : StartsToken rest) (offset : Nat) :
    Cursor.skipBlanks (blanks ++ rest) offset = ⟨rest, offset + blanks.length⟩ := by
  have hAll := hBlanks.isBlank
  clear hBlanks
  induction blanks generalizing offset with
  | nil =>
      cases rest with
      | nil => rfl
      | cons c rest => simp [Cursor.skipBlanks, hRest c rfl]
  | cons c others ih =>
      rw [List.forall_mem_cons] at hAll
      rw [List.cons_append, Cursor.skipBlanks, if_pos hAll.1, ih _ hAll.2, List.length_cons]
      congr 1
      omega

theorem Cursor.blanks_append {blanks : List Char} (hBlanks : Blanks blanks)
    (hRest : StartsToken rest) (offset : Nat) :
    Cursor.blanks ⟨blanks ++ rest, offset⟩ = ⟨rest, offset + blanks.length⟩ :=
  skipBlanks_append hBlanks hRest offset

theorem scans_word (word : List Char) : Scans (scanWord word) (word ++ rest) () rest := by
  induction word with
  | nil => exact fun offset => ⟨offset, rfl⟩
  | cons c more ih =>
      intro offset
      obtain ⟨later, hMore⟩ := ih (offset + c.utf8Size)
      refine ⟨later, ?_⟩
      simpa [scanWord, Cursor.next] using hMore

theorem hexDigit?_of_hexDigit {value : Nat} {c : Char} (hDigit : HexDigit value c) :
    hexDigit? c = some value := by
  have hLower : ∀ value : Fin 16,
      hexDigit? ("0123456789abcdef".toList[value.val]) = some value.val := by
    decide
  have hUpper : ∀ value : Fin 16,
      hexDigit? ("0123456789ABCDEF".toList[value.val]) = some value.val := by
    decide
  rcases hDigit with hDigit | hDigit
  · obtain ⟨hBound, rfl⟩ := List.getElem?_eq_some_iff.mp hDigit
    exact hLower ⟨value, hBound⟩
  · obtain ⟨hBound, rfl⟩ := List.getElem?_eq_some_iff.mp hDigit
    exact hUpper ⟨value, hBound⟩

theorem scanUnit_append {value : Nat} {digits : List Char} (hDigits : UnitWritten value digits)
    (rest : List Char) (offset : Nat) :
    scanUnit ⟨digits ++ rest, offset⟩ = .done value ⟨rest, offset + 4⟩ := by
  obtain ⟨hFirst, hSecond, hThird, hFourth⟩ := hDigits
  simp only [scanUnit, List.cons_append, List.nil_append, hexDigit?_of_hexDigit hFirst,
    hexDigit?_of_hexDigit hSecond, hexDigit?_of_hexDigit hThird, hexDigit?_of_hexDigit hFourth]

theorem UnitWritten.lt {value : Nat} {digits : List Char} (hDigits : UnitWritten value digits) :
    value < 0x10000 := by
  have hBound : ∀ {value : Nat} {c : Char}, HexDigit value c → value < 16 := by
    intro value c hDigit
    rcases hDigit with hDigit | hDigit <;> exact (List.getElem?_eq_some_iff.mp hDigit).1
  obtain ⟨hFirst, hSecond, hThird, hFourth⟩ := hDigits
  have := hBound hFirst
  have := hBound hSecond
  have := hBound hThird
  have := hBound hFourth
  omega

/-- Characters are no surrogates. -/
theorem isSurrogate_toNat (c : Char) :
    isLowSurrogate c.toNat = false ∧ isHighSurrogate c.toNat = false := by
  have hValid : c.toNat < 0xD800 ∨ 0xDFFF < c.toNat ∧ c.toNat < 0x110000 := c.valid
  simp only [isLowSurrogate, isHighSurrogate, Bool.and_eq_false_iff, decide_eq_false_iff_not]
  omega

theorem shortEscape?_of_mem {letter c : Char} (hShort : (letter, c) ∈ shortEscapes) :
    shortEscape? letter = some c := by
  simp only [shortEscapes, List.mem_cons, Prod.mk.injEq, List.not_mem_nil, or_false] at hShort
  rcases hShort with h | h | h | h | h | h | h | h <;> obtain ⟨rfl, rfl⟩ := h <;> rfl

theorem scanEscape_unit {c : Char} {digits : List Char} (hDigits : UnitWritten c.toNat digits)
    (rest : List Char) (offset : Nat) :
    scanEscape ⟨'u' :: (digits ++ rest), offset⟩ = .done c ⟨rest, offset + 1 + 4⟩ := by
  obtain ⟨hLow, hHigh⟩ := isSurrogate_toNat c
  have hUnit := scanUnit_append hDigits rest (offset + 1)
  have hShort : shortEscape? 'u' = none := rfl
  have hBytes : 'u'.utf8Size = 1 := rfl
  simp [scanEscape, hShort, scanHexEscape, Cursor.next, hBytes, hUnit, hLow, hHigh]

theorem scanEscape_pair {c : Char} {high low : Nat} {digits more : List Char}
    (hHigh : 0xD800 ≤ high ∧ high ≤ 0xDBFF) (hLow : 0xDC00 ≤ low ∧ low ≤ 0xDFFF)
    (hChar : c.toNat = 0x10000 + (high - 0xD800) * 0x400 + (low - 0xDC00))
    (hDigits : UnitWritten high digits) (hMore : UnitWritten low more) (rest : List Char)
    (offset : Nat) :
    ∃ later, scanEscape ⟨'u' :: (digits ++ '\x5c' :: 'u' :: (more ++ rest)), offset⟩ =
      .done c ⟨rest, later⟩ := by
  have hFirst := scanUnit_append hDigits ('\x5c' :: 'u' :: (more ++ rest)) (offset + 1)
  have hSecond := scanUnit_append hMore rest (offset + 1 + 4 + 2)
  have hShort : shortEscape? 'u' = none := rfl
  have hBytes : 'u'.utf8Size = 1 := rfl
  have hNotLow : isLowSurrogate high = false := by
    simp only [isLowSurrogate, Bool.and_eq_false_iff, decide_eq_false_iff_not]
    omega
  have hIsHigh : isHighSurrogate high = true := by simp [isHighSurrogate, hHigh]
  have hIsLow : isLowSurrogate low = true := by simp [isLowSurrogate, hLow]
  have hJoin : joinSurrogates high low = c := by
    have hSum : (high - 0xD800) * 0x400 + (low - 0xDC00) + 0x10000 = c.toNat := by omega
    rw [joinSurrogates, hSum, Char.ofNat_toNat]
  exact ⟨_, by simp [scanEscape, hShort, scanHexEscape, Cursor.next, hBytes, hFirst, hNotLow,
    hIsHigh, hSecond, hIsLow, hJoin]; rfl⟩

/-- A character that stands for itself is read as it is. -/
theorem scanString_plain {c : Char} (hQuote : c ≠ '\x22') (hBackslash : c ≠ '\x5c')
    (hControl : 0x20 ≤ c.toNat) (read rest : List Char) (offset : Nat) :
    scanString read ⟨c :: rest, offset⟩ = scanString (c :: read) ⟨rest, offset + c.utf8Size⟩ := by
  rw [scanString]
  simp [hQuote, hBackslash, Nat.not_lt.mpr hControl, Cursor.next]

/-- An escape is read as what it stands for. -/
theorem scanString_escape {c : Char} {text : List Char} {offset : Nat} {next : Cursor}
    (hEscape : scanEscape ⟨text, offset + 1⟩ = .done c next) (read : List Char) :
    scanString read ⟨'\x5c' :: text, offset⟩ = scanString (c :: read) next := by
  have hNext : Cursor.next ⟨'\x5c' :: text, offset⟩ = ⟨text, offset + 1⟩ := rfl
  have hOther : ¬ '\x5c' = '\x22' := by decide
  rw [scanString]
  simp only [if_neg hOther, if_pos]
  split
  · rename_i hFault
    rw [hNext, hEscape] at hFault
    cases hFault
  · rename_i hDone
    rw [hNext, hEscape] at hDone
    obtain ⟨rfl, rfl⟩ := Scan.done.inj hDone
    rfl

theorem scanString_char {c : Char} {text : List Char} (hChar : CharWritten c text)
    (read rest : List Char) (offset : Nat) :
    ∃ later, scanString read ⟨text ++ rest, offset⟩ = scanString (c :: read) ⟨rest, later⟩ := by
  cases hChar with
  | plain hQuote hBackslash hControl =>
      exact ⟨_, scanString_plain hQuote hBackslash hControl read rest offset⟩
  | @short letter _ hShort =>
      have hEscape : scanEscape ⟨letter :: rest, offset + 1⟩ =
          .done c ⟨rest, offset + 1 + letter.utf8Size⟩ := by
        simp [scanEscape, shortEscape?_of_mem hShort, Cursor.next]
      exact ⟨_, scanString_escape hEscape read⟩
  | unit hDigits => exact ⟨_, scanString_escape (scanEscape_unit hDigits rest _) read⟩
  | pair hHigh hLow hChar hDigits hMore =>
      obtain ⟨later, hEscape⟩ := scanEscape_pair hHigh hLow hChar hDigits hMore rest (offset + 1)
      refine ⟨later, ?_⟩
      simpa only [List.cons_append, List.append_assoc] using scanString_escape hEscape read

theorem scanString_chars {chars text : List Char} (hChars : CharsWritten chars text)
    (rest read : List Char) (offset : Nat) :
    ∃ later, scanString read ⟨text ++ '\x22' :: rest, offset⟩ =
      .done (read.reverse ++ chars) ⟨rest, later⟩ := by
  induction hChars generalizing read offset with
  | nil =>
      refine ⟨offset + '\x22'.utf8Size, ?_⟩
      rw [List.nil_append, scanString]
      simp [Cursor.next]
  | @cons c _ _ _ hFirst _ ih =>
      obtain ⟨next, hStep⟩ := scanString_char hFirst read (_ ++ '\x22' :: rest) offset
      obtain ⟨later, hRest⟩ := ih (c :: read) next
      refine ⟨later, ?_⟩
      rw [List.append_assoc, hStep, hRest, List.reverse_cons, List.append_assoc]
      rfl

/-- Passing over an escape gets to where the characters behind it begin. -/
theorem skipString_escape {text : List Char} {offset : Nat} {next : Cursor}
    (hEscape : skipEscape ⟨text, offset + 1⟩ = .done () next) :
    skipString ⟨'\x5c' :: text, offset⟩ = skipString next := by
  have hNext : Cursor.next ⟨'\x5c' :: text, offset⟩ = ⟨text, offset + 1⟩ := rfl
  have hOther : ¬ '\x5c' = '\x22' := by decide
  rw [skipString]
  simp only [if_neg hOther, if_pos]
  split
  · rename_i hFault
    rw [hNext, hEscape] at hFault
    cases hFault
  · rename_i hDone
    rw [hNext, hEscape] at hDone
    obtain ⟨-, rfl⟩ := Scan.done.inj hDone
    rfl

theorem skipEscape_unit {value : Nat} {digits : List Char} (hDigits : UnitWritten value digits)
    (rest : List Char) (offset : Nat) :
    skipEscape ⟨'u' :: (digits ++ rest), offset⟩ = .done () ⟨rest, offset + 1 + 4⟩ := by
  have hUnit := scanUnit_append hDigits rest (offset + 1)
  have hShort : shortEscape? 'u' = none := rfl
  have hBytes : 'u'.utf8Size = 1 := rfl
  simp [skipEscape, hShort, Cursor.next, hBytes, hUnit]

theorem skipString_char {c : Char} {text : List Char} (hChar : CharWritten c text)
    (rest : List Char) (offset : Nat) :
    ∃ later, skipString ⟨text ++ rest, offset⟩ = skipString ⟨rest, later⟩ := by
  cases hChar with
  | plain hQuote hBackslash hControl =>
      refine ⟨offset + c.utf8Size, ?_⟩
      rw [List.cons_append, List.nil_append, skipString]
      simp [hQuote, hBackslash, Nat.not_lt.mpr hControl, Cursor.next]
  | @short letter _ hShort =>
      have hEscape : skipEscape ⟨letter :: rest, offset + 1⟩ =
          .done () ⟨rest, offset + 1 + letter.utf8Size⟩ := by
        simp [skipEscape, shortEscape?_of_mem hShort, Cursor.next]
      exact ⟨_, skipString_escape hEscape⟩
  | unit hDigits => exact ⟨_, skipString_escape (skipEscape_unit hDigits rest _)⟩
  | pair _ _ _ hDigits hMore =>
      -- The two units are passed over as two escapes.
      rw [List.cons_append, List.cons_append, List.append_assoc,
        skipString_escape (skipEscape_unit hDigits _ _)]
      exact ⟨_, skipString_escape (skipEscape_unit hMore rest _)⟩

theorem skipString_chars {chars text : List Char} (hChars : CharsWritten chars text)
    (rest : List Char) (offset : Nat) :
    ∃ later, skipString ⟨text ++ '\x22' :: rest, offset⟩ = .done () ⟨rest, later⟩ := by
  induction hChars generalizing offset with
  | nil =>
      refine ⟨offset + '\x22'.utf8Size, ?_⟩
      rw [List.nil_append, skipString]
      simp [Cursor.next]
  | @cons c _ _ _ hFirst _ ih =>
      obtain ⟨next, hStep⟩ := skipString_char hFirst (_ ++ '\x22' :: rest) offset
      obtain ⟨later, hRest⟩ := ih next
      exact ⟨later, by rw [List.append_assoc, hStep, hRest]⟩

end PageGen.Json
