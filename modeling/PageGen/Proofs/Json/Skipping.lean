import PageGen.Proofs.Json.Containers

/-! Passing over values. Whatever containers are open around a value, passing
over it gets from its start to its end, and the same containers are open there. -/
namespace PageGen.Json

/-- Passes over a value inside of a container, and on from there. -/
def skipItem (bracket : Bracket) (outer : List Bracket) (cursor : Cursor) : Scan Unit :=
  match skipToValue bracket cursor with
  | .fault fault offset => .fault fault offset
  | .done _ next => skipOn .beforeValue (bracket :: outer) next

section Stages

variable {cursor : Cursor} {c : Char} {more : List Char} {place : Nat}

theorem skipOn_beforeValue (hBlanks : cursor.blanks = ⟨c :: more, place⟩) (outer : List Bracket) :
    skipOn .beforeValue outer cursor =
      if c = '[' then skipOn (.opened .array) outer ⟨more, place + c.utf8Size⟩
      else if c = '\x7b' then skipOn (.opened .object) outer ⟨more, place + c.utf8Size⟩
      else
        match skipScalar c ⟨c :: more, place⟩ with
        | .fault fault offset => .fault fault offset
        | .done _ next => skipOn .behindValue outer next := by
  conv =>
    lhs
    rw [skipOn]
  split
  · rename_i hRest
    simp [hBlanks] at hRest
  · rename_i hRest
    rw [hBlanks] at hRest
    obtain ⟨rfl, rfl⟩ := List.cons.inj hRest
    simp only [hBlanks, Cursor.next]
    congr 2
    split <;> simp_all

theorem skipOn_opened (hBlanks : cursor.blanks = ⟨c :: more, place⟩) (bracket : Bracket)
    (outer : List Bracket) :
    skipOn (.opened bracket) outer cursor =
      if c = bracket.closing then skipOn .behindValue outer ⟨more, place + c.utf8Size⟩
      else skipItem bracket outer ⟨c :: more, place⟩ := by
  conv =>
    lhs
    rw [skipOn]
  split
  · rename_i hRest
    simp [hBlanks] at hRest
  · rename_i hRest
    rw [hBlanks] at hRest
    obtain ⟨rfl, rfl⟩ := List.cons.inj hRest
    simp only [hBlanks, Cursor.next, skipItem]
    congr 1
    split <;> simp_all

theorem skipOn_behindValue (hBlanks : cursor.blanks = ⟨c :: more, place⟩) (bracket : Bracket)
    (outer : List Bracket) :
    skipOn .behindValue (bracket :: outer) cursor =
      if c = ',' then skipItem bracket outer ⟨more, place + c.utf8Size⟩
      else if c = bracket.closing then skipOn .behindValue outer ⟨more, place + c.utf8Size⟩
      else .fault bracket.unfinished (Cursor.peeked ⟨c :: more, place⟩) := by
  conv =>
    lhs
    rw [skipOn]
  split
  · rename_i hRest
    simp [hBlanks] at hRest
  · rename_i hRest
    rw [hBlanks] at hRest
    obtain ⟨rfl, rfl⟩ := List.cons.inj hRest
    simp only [hBlanks, Cursor.next, skipItem]
    congr 1
    split <;> simp_all

end Stages

variable {blanks rest text : List Char} {bracket : Bracket}

theorem skipScalar_digit {c : Char} (hDigit : c.isDigit = true) : skipScalar c = skipNumber := by
  have hOther : ∀ d : Char, d.isDigit = false → c ≠ d := fun _ => ne_of_isDigit hDigit
  funext cursor
  simp only [skipScalar, if_neg (hOther 'n' rfl), if_neg (hOther 't' rfl),
    if_neg (hOther 'f' rfl), if_neg (hOther '-' rfl), if_neg (hOther '\x22' rfl), if_pos hDigit]

/-- A value that is no container is passed over as one token. -/
theorem scans_skipScalar {json : Json} (hScalar : ScalarWritten json text)
    (hRest : EndsNumber rest) :
    ∃ c more, text = c :: more ∧ Scans (skipScalar c) (text ++ rest) () rest := by
  have hNumber : ∀ {n : Number} {text : List Char}, NumberWritten n text →
      ∃ c more, text = c :: more ∧ Scans (skipScalar c) (text ++ rest) () rest := by
    intro n text hNumber
    cases hNumber with
    | positive hScan =>
        obtain ⟨c, more, rfl, hDigit⟩ := isDigit_of_scanNumber hScan
        refine ⟨c, more, rfl, fun offset => ?_⟩
        rw [skipScalar_digit hDigit]
        exact scans_skipNumber hScan hRest offset
    | negative hScan =>
        exact ⟨'-', _, rfl, fun offset => scans_skipNumber hScan hRest (offset + 1)⟩
  cases hScalar
  case null => exact ⟨'n', _, rfl, fun offset => scans_word "ull".toList (offset + 1)⟩
  case true => exact ⟨'t', _, rfl, fun offset => scans_word "rue".toList (offset + 1)⟩
  case false => exact ⟨'f', _, rfl, fun offset => scans_word "alse".toList (offset + 1)⟩
  case integer hWritten => exact hNumber hWritten
  case float hWritten => exact hNumber hWritten
  case string hString =>
    obtain ⟨hChars⟩ := hString
    refine ⟨'\x22', _, rfl, fun offset => ?_⟩
    simp only [List.cons_append, List.append_assoc, List.nil_append]
    exact skipString_chars hChars rest (offset + 1)

/-- From in front of a text of a value the passing over comes to its end, whatever
is open around it. -/
def PassedOver (written : Json → List Char → Prop) : Prop :=
  ∀ json text, written json text → ∀ blanks rest, Blanks blanks → EndsNumber rest →
    ∀ outer offset, ∃ later, skipOn .beforeValue outer ⟨blanks ++ (text ++ rest), offset⟩ =
      skipOn .behindValue outer ⟨rest, later⟩

/-- The same for what a container holds, with what comes in front of a value in it. -/
def ItemsPassedOver {ι : Type} (bracket : Bracket) (written : ι → List Char → Prop) : Prop :=
  ∀ item text, written item text → ∀ blanks rest, Blanks blanks → EndsNumber rest →
    ∀ outer offset, ∃ later, skipItem bracket outer ⟨blanks ++ (text ++ rest), offset⟩ =
      skipOn .behindValue (bracket :: outer) ⟨rest, later⟩

theorem passedOver_scalar : PassedOver ScalarWritten := by
  intro json text hScalar blanks rest hBlanks hRest outer offset
  obtain ⟨c, more, rfl, hScan⟩ := scans_skipScalar hScalar hRest
  obtain ⟨_, _, hChars, hToken, -⟩ := hScalar.starts
  obtain ⟨rfl, rfl⟩ := List.cons.inj hChars
  obtain ⟨later, hDone⟩ := hScan (offset + blanks.length)
  have hStart := Cursor.blanks_append hBlanks (startsToken_cons hToken (more ++ rest)) offset
  have hArray : c ≠ '[' := by
    rintro rfl
    simp [skipScalar] at hDone
  have hObject : c ≠ '\x7b' := by
    rintro rfl
    simp [skipScalar] at hDone
  refine ⟨later, ?_⟩
  rw [List.cons_append] at hDone ⊢
  rw [skipOn_beforeValue hStart, if_neg hArray, if_neg hObject, hDone]

theorem itemsPassedOver_array {written : Json → List Char → Prop} (hValues : PassedOver written) :
    ItemsPassedOver .array written :=
  fun item text hItem _ _ hBlanks hRest _ => hValues item text hItem _ _ hBlanks hRest _

/-- A key is passed over together with its colon. -/
theorem scans_skipKey {key : String} {keyText before : List Char} (hBlanks : Blanks blanks)
    (hKey : StringWritten key keyText) (hBefore : Blanks before) (rest : List Char) :
    Scans skipKey (blanks ++ (keyText ++ (before ++ ':' :: rest))) () rest := by
  intro offset
  obtain ⟨hChars⟩ := hKey
  rename_i text
  have hQuote := Cursor.blanks_append hBlanks (startsToken_cons
    (show Cursor.isBlank '\x22' = false from rfl) (text ++ '\x22' :: (before ++ ':' :: rest)))
    offset
  obtain ⟨place, hString⟩ := skipString_chars hChars (before ++ ':' :: rest)
    (offset + blanks.length + '\x22'.utf8Size)
  have hColon := Cursor.blanks_append hBefore
    (startsToken_cons (show Cursor.isBlank ':' = false from rfl) rest) place
  refine ⟨place + before.length + ':'.utf8Size, ?_⟩
  simp only [List.append_assoc, List.cons_append, List.nil_append]
  simp only [skipKey, hQuote, if_pos, Cursor.next, hString, hColon]

theorem itemsPassedOver_object {written : Json → List Char → Prop} (hValues : PassedOver written) :
    ItemsPassedOver .object (EntryWritten written) := by
  intro entry text hEntry blanks rest hBlanks hRest outer offset
  obtain ⟨hKey, hBefore, hAfter, hValue⟩ := hEntry
  rename_i key value keyText before after text
  obtain ⟨place, hSkip⟩ := scans_skipKey hBlanks hKey hBefore (after ++ (text ++ rest)) offset
  obtain ⟨later, hMore⟩ :=
    hValues value text hValue after rest hAfter hRest (.object :: outer) place
  simp only [List.append_assoc, List.cons_append]
  exact ⟨later, by simp only [skipItem, skipToValue, hSkip, hMore]⟩

theorem isBlank_closing (bracket : Bracket) : Cursor.isBlank bracket.closing = false := by
  cases bracket <;> rfl

section Loop

variable {ι : Type} {written : ι → List Char → Prop} {items : List ι}

/-- From in front of the first of several items to behind the closing bracket. -/
theorem skipItem_items (hItems : ItemsPassedOver bracket written)
    (hWritten : Separated written items text) (hNonempty : items ≠ []) (rest : List Char)
    (outer : List Bracket) (offset : Nat) :
    ∃ later, skipItem bracket outer ⟨text ++ bracket.closing :: rest, offset⟩ =
      skipOn .behindValue outer ⟨rest, later⟩ := by
  induction hWritten generalizing offset with
  | nil => exact absurd rfl hNonempty
  | single hBefore hItem hAfter =>
      obtain ⟨place, hFirst⟩ := hItems _ _ hItem _ _ hBefore
        (endsNumber_blanks hAfter (endsNumber_closing bracket rest)) outer offset
      have hEnd := Cursor.blanks_append hAfter
        (startsToken_cons (isBlank_closing bracket) rest) place
      have hComma : bracket.closing ≠ ',' := by cases bracket <;> decide
      simp only [List.append_assoc]
      exact ⟨_, by rw [hFirst, skipOn_behindValue hEnd, if_neg hComma, if_pos rfl]⟩
  | @cons _ _ _ _ _ _ others hBefore hItem hAfter _ ih =>
      obtain ⟨place, hFirst⟩ := hItems _ _ hItem _ _ hBefore
        (endsNumber_blanks hAfter (endsNumber_comma (others ++ bracket.closing :: rest))) outer
        offset
      have hComma := Cursor.blanks_append hAfter (startsToken_cons
        (show Cursor.isBlank ',' = false from rfl) (others ++ bracket.closing :: rest)) place
      obtain ⟨later, hMore⟩ := ih (by simp) _
      simp only [List.append_assoc, List.cons_append]
      exact ⟨later, by rw [hFirst, skipOn_behindValue hComma, if_pos rfl, hMore]⟩

/-- From behind the opening bracket to behind the closing bracket. -/
theorem skipOn_items (hStarts : ∀ item text, written item text → StartsItem text)
    (hItems : ItemsPassedOver bracket written) (hWritten : Separated written items text)
    (rest : List Char) (outer : List Bracket) (offset : Nat) :
    ∃ later, skipOn (.opened bracket) outer ⟨text ++ bracket.closing :: rest, offset⟩ =
      skipOn .behindValue outer ⟨rest, later⟩ := by
  -- Behind the blanks in front of it the first item is at hand.
  have hFirst : ∀ {item : ι} {before text rest : List Char}, Blanks before → written item text →
      ∃ place, skipOn (.opened bracket) outer ⟨before ++ (text ++ rest), offset⟩ =
        skipItem bracket outer ⟨text ++ rest, place⟩ := by
    intro item before text rest hBefore hItem
    obtain ⟨c, more, rfl, hToken, hArray, hObject, -⟩ := hStarts item text hItem
    have hStart := Cursor.blanks_append hBefore (startsToken_cons hToken (more ++ rest)) offset
    have hOther : c ≠ bracket.closing := by
      cases bracket with
      | array => exact hArray
      | object => exact hObject
    exact ⟨_, by rw [List.cons_append, skipOn_opened hStart, if_neg hOther]⟩
  cases hWritten with
  | nil hBlanks =>
      have hEnd := Cursor.blanks_append hBlanks
        (startsToken_cons (isBlank_closing bracket) rest) offset
      exact ⟨_, by rw [skipOn_opened hEnd, if_pos rfl]⟩
  | @single item before text after hBefore hItem hAfter =>
      obtain ⟨place, hStart⟩ := hFirst hBefore hItem
      obtain ⟨later, hAll⟩ := skipItem_items hItems (.single .nil hItem hAfter) (by simp) rest outer
        place
      refine ⟨later, ?_⟩
      simp only [List.append_assoc, List.nil_append] at hAll ⊢
      rw [hStart, hAll]
  | @cons item _ _ before text after others hBefore hItem hAfter hRest =>
      obtain ⟨place, hStart⟩ := hFirst hBefore hItem
      obtain ⟨later, hAll⟩ := skipItem_items hItems (.cons .nil hItem hAfter hRest) (by simp) rest
        outer place
      refine ⟨later, ?_⟩
      simp only [List.append_assoc, List.cons_append, List.nil_append] at hAll ⊢
      rw [hStart, hAll]

end Loop

/-- Every value is passed over, whichever of its texts it is written in. -/
theorem passedOver_written (room : Nat) : PassedOver (Written room) := by
  induction room with
  | zero => exact passedOver_scalar
  | succ room ih =>
      intro json text hWritten blanks rest hBlanks hRest outer offset
      rcases hWritten with hScalar | hContainer
      · exact passedOver_scalar json text hScalar blanks rest hBlanks hRest outer offset
      · cases hContainer with
        | @array items text hItems =>
            have hStart := Cursor.blanks_append hBlanks (startsToken_cons
              (show Cursor.isBlank '[' = false from rfl) (text ++ ']' :: rest)) offset
            obtain ⟨later, hAll⟩ := skipOn_items Written.starts (itemsPassedOver_array ih) hItems
              rest outer (offset + blanks.length + '['.utf8Size)
            refine ⟨later, ?_⟩
            simp only [List.append_assoc, List.cons_append, List.nil_append]
            rw [skipOn_beforeValue hStart, if_pos rfl]
            exact hAll
        | @object entries text hEntries =>
            have hStart := Cursor.blanks_append hBlanks (startsToken_cons
              (show Cursor.isBlank '\x7b' = false from rfl) (text ++ '\x7d' :: rest)) offset
            obtain ⟨later, hAll⟩ := skipOn_items EntryWritten.starts (itemsPassedOver_object ih)
              hEntries rest outer (offset + blanks.length + '\x7b'.utf8Size)
            refine ⟨later, ?_⟩
            simp only [List.append_assoc, List.cons_append, List.nil_append]
            rw [skipOn_beforeValue hStart, if_neg (by decide), if_pos rfl]
            exact hAll

theorem Reader.understands_skip (room : Nat) (json : Json) :
    Understands (Written room) Reader.skip json () := by
  intro blanks text rest hBlanks hWritten hRest
  have hScans : Scans (skipOn .beforeValue []) (blanks ++ (text ++ rest)) () rest := fun offset =>
    (passedOver_written room json text hWritten blanks rest hBlanks hRest [] offset).imp
      fun later hSkip => by rw [hSkip, skipOn]
  exact .ofScan length_skipOn_le hScans

end PageGen.Json
