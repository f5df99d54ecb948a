import PageGen.Proofs.Json.Numbers

/-! Readers on text as it may be written. A reader takes a piece of text if it
gets from its start to its end, wherever it lies. What a sequence of readers
takes is put together from what each of them takes, and so is what the readers
of containers take from what the readers of their items do. -/
namespace PageGen.Json

namespace Reader

variable {α β ι : Type}

/-- From one rest of a text to another the reader comes to this value. -/
def Takes (reader : Reader α) (before : List Char) (value : α) (after : List Char) : Prop :=
  ∀ offset, ∃ later, ∃ hNext : after.length ≤ before.length,
    reader ⟨before, offset⟩ = .done value ⟨after, later⟩ hNext

/-- The reader takes every text in which the item is written, behind any blanks
and in front of whatever may follow a value. -/
def Understands (written : ι → List Char → Prop) (reader : Reader α) (item : ι) (value : α) :
    Prop :=
  ∀ ⦃blanks text rest⦄, Blanks blanks → written item text → EndsNumber rest →
    reader.Takes (blanks ++ (text ++ rest)) value rest

namespace Takes

variable {before middle after rest : List Char} {value : α} {final : β}

theorem pure (value : α) (before : List Char) :
    (Pure.pure value : Reader α).Takes before value before :=
  fun offset => ⟨offset, Nat.le_refl _, rfl⟩

theorem bind {reader : Reader α} {next : α → Reader β} (hFirst : reader.Takes before value middle)
    (hNext : (next value).Takes middle final after) :
    (reader >>= next).Takes before final after := by
  intro offset
  obtain ⟨place, hMiddle, hFirst⟩ := hFirst offset
  obtain ⟨later, hAfter, hNext⟩ := hNext place
  refine ⟨later, Nat.le_trans hAfter hMiddle, ?_⟩
  simp only [Bind.bind, hFirst, hNext, Outcome.from]

theorem ofScan {scan : Cursor → Scan α}
    (hScan : ∀ {cursor next value}, scan cursor = .done value next →
      next.rest.length ≤ cursor.rest.length) (hScans : Scans scan before value after) :
    (Reader.ofScan scan hScan).Takes before value after := by
  intro offset
  obtain ⟨later, hDone⟩ := hScans offset
  refine ⟨later, hScan hDone, ?_⟩
  unfold Reader.ofScan
  split
  · rename_i hOther
    obtain ⟨rfl, rfl⟩ := Scan.done.inj (hDone.symm.trans hOther)
    rfl
  · rename_i hFault
    rw [hDone] at hFault
    cases hFault

theorem advance (c : Char) (rest : List Char) : Reader.advance.Takes (c :: rest) () rest :=
  fun offset => ⟨offset + c.utf8Size, by simp, rfl⟩

theorem blanks {blanks : List Char} (hBlanks : Blanks blanks) (hRest : StartsToken rest) :
    Reader.blanks.Takes (blanks ++ rest) () rest := by
  intro offset
  refine ⟨offset + blanks.length, by simp, ?_⟩
  have hPlace := Cursor.blanks_append hBlanks hRest offset
  simp only [Reader.blanks, hPlace]

theorem peekToken {blanks : List Char} (hBlanks : Blanks blanks) {c : Char}
    (hToken : Cursor.isBlank c = false) (rest : List Char) :
    Reader.peekToken.Takes (blanks ++ c :: rest) (some c) (c :: rest) := by
  have hStart : StartsToken (c :: rest) := by
    rintro _ ⟨⟩
    exact hToken
  exact .bind (.blanks hBlanks hStart) fun offset => ⟨offset, Nat.le_refl _, rfl⟩

theorem word (characters : String) (rest : List Char) :
    (Reader.word characters).Takes (characters.toList ++ rest) () rest :=
  .ofScan length_scanWord_le (scans_word characters.toList)

theorem stringTail {s : String} {text : List Char} (hChars : CharsWritten s.toList text)
    (rest : List Char) : Reader.stringTail.Takes (text ++ '\x22' :: rest) s rest := by
  have hScans : Scans (scanString []) (text ++ '\x22' :: rest) s.toList rest :=
    scanString_chars hChars rest []
  refine .bind (.ofScan (fun hScan => Nat.le_of_lt (length_scanString_lt hScan)) hScans) ?_
  simpa using Takes.pure s rest

theorem numberTail {negative : Bool} {n : Number} {text : List Char} {bytes : Nat}
    (hScan : scanNumber negative ⟨text, 0⟩ = .done n ⟨[], bytes⟩) (hRest : EndsNumber rest) :
    (Reader.numberTail negative).Takes (text ++ rest) n rest :=
  .ofScan length_scanNumber_le (scans_number hScan hRest)

end Takes

/-- The token that a value is, if it is no container. -/
def scalarToken : Json → Option Token
  | .null => some .null
  | .boolean b => some (.boolean b)
  | .integer n => some (.number (.integer n))
  | .float x => some (.number (.float x))
  | .string s => some (.string s)
  | .array _ => none
  | .object _ => none

variable {blanks rest : List Char}

/-- A digit begins no other token than a number. -/
theorem takes_token_digit {c : Char} (hDigit : c.isDigit = true) (hBlanks : Blanks blanks)
    {text : List Char} {n : Number} (hNumber : (numberTail false).Takes (c :: text) n rest) :
    token.Takes (blanks ++ c :: text) (.number n) rest := by
  refine .bind (.peekToken hBlanks (isBlank_of_isDigit hDigit) text) ?_
  split
  any_goals
    rename_i hSame
    cases hSame
  any_goals simp at hDigit
  rw [if_pos hDigit]
  exact .bind hNumber (.pure _ rest)

theorem takes_token_number {n : Number} {text : List Char} (hNumber : NumberWritten n text)
    (hBlanks : Blanks blanks) (hRest : EndsNumber rest) :
    token.Takes (blanks ++ (text ++ rest)) (.number n) rest := by
  cases hNumber with
  | positive hScan =>
      obtain ⟨c, more, rfl, hDigit⟩ := isDigit_of_scanNumber hScan
      exact takes_token_digit hDigit hBlanks (.numberTail hScan hRest)
  | negative hScan =>
      exact .bind (.peekToken hBlanks rfl _)
        (.bind (.advance '-' _) (.bind (.numberTail hScan hRest) (.pure _ rest)))

theorem takes_token_string {s : String} {text : List Char} (hString : StringWritten s text)
    (hBlanks : Blanks blanks) (rest : List Char) :
    token.Takes (blanks ++ (text ++ rest)) (.string s) rest := by
  obtain ⟨hChars⟩ := hString
  simp only [List.cons_append, List.append_assoc, List.nil_append]
  exact .bind (.peekToken hBlanks rfl _)
    (.bind (.advance '\x22' _) (.bind (.stringTail hChars rest) (.pure _ rest)))

/-- A value that is no container is one token. -/
theorem takes_token_scalar {json : Json} {text : List Char} (hScalar : ScalarWritten json text)
    {t : Token} (hToken : scalarToken json = some t) (hBlanks : Blanks blanks)
    (hRest : EndsNumber rest) : token.Takes (blanks ++ (text ++ rest)) t rest := by
  cases hScalar <;> obtain rfl := Option.some.inj hToken
  case null =>
    exact .bind (.peekToken hBlanks rfl _)
      (.bind (.advance 'n' _) (.bind (.word "ull" rest) (.pure _ rest)))
  case true =>
    exact .bind (.peekToken hBlanks rfl _)
      (.bind (.advance 't' _) (.bind (.word "rue" rest) (.pure _ rest)))
  case false =>
    exact .bind (.peekToken hBlanks rfl _)
      (.bind (.advance 'f' _) (.bind (.word "alse" rest) (.pure _ rest)))
  case integer hNumber => exact takes_token_number hNumber hBlanks hRest
  case float hNumber => exact takes_token_number hNumber hBlanks hRest
  case string hString => exact takes_token_string hString hBlanks rest

theorem takes_token_array (hBlanks : Blanks blanks) (rest : List Char) :
    token.Takes (blanks ++ '[' :: rest) .arrayStart ('[' :: rest) :=
  .bind (.peekToken hBlanks rfl rest) (.pure _ _)

theorem takes_token_object (hBlanks : Blanks blanks) (rest : List Char) :
    token.Takes (blanks ++ '\x7b' :: rest) .objectStart ('\x7b' :: rest) :=
  .bind (.peekToken hBlanks rfl rest) (.pure _ _)

end Reader

end PageGen.Json
