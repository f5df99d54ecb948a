import Mathlib.Data.List.Forall2
import PageGen.Proofs.Json.Reading

/-! Containers. A step of the loop over the items of an array takes what comes
before an item and the item, and the loop takes them all. The same goes for the
entries of an object. From there on every value is read as itself, whichever of
its texts it is written in. -/
namespace PageGen.Json

/-- What stands in front of the blanks before an item: nothing, or the rest of
the item before it. -/
inductive Lead : (first : Bool) → List Char → Prop where
  | first : Lead true []
  | later {blanks : List Char} (hBlanks : Blanks blanks) : Lead false (blanks ++ [','])

/-- The text of an item begins with a character that ends neither blanks nor a
container. -/
def StartsItem (text : List Char) : Prop :=
  ∃ c more, text = c :: more ∧ Cursor.isBlank c = false ∧ c ≠ ']' ∧ c ≠ '\x7d' ∧ c ≠ ','

theorem Blanks.nil : Blanks [] := by simp [Blanks]

theorem endsNumber_blanks {blanks rest : List Char} (hBlanks : Blanks blanks)
    (hRest : EndsNumber rest) : EndsNumber (blanks ++ rest) := by
  cases blanks with
  | nil => exact hRest
  | cons d more =>
      rintro _ ⟨⟩
      have hBlank := hBlanks d List.mem_cons_self
      simp only [List.mem_cons, List.not_mem_nil, or_false] at hBlank
      rcases hBlank with rfl | rfl | rfl | rfl <;> decide

theorem endsNumber_comma (rest : List Char) : EndsNumber (',' :: rest) := by
  rintro _ ⟨⟩
  decide

theorem endsNumber_closing (bracket : Bracket) (rest : List Char) :
    EndsNumber (bracket.closing :: rest) := by
  cases bracket <;> rintro _ ⟨⟩ <;> decide

theorem startsToken_cons {c : Char} (hToken : Cursor.isBlank c = false) (rest : List Char) :
    StartsToken (c :: rest) := by
  rintro _ ⟨⟩
  exact hToken

/-- A digit begins an item. -/
theorem startsItem_digit {c : Char} (hDigit : c.isDigit = true) (more : List Char) :
    StartsItem (c :: more) :=
  ⟨c, more, rfl, isBlank_of_isDigit hDigit, ne_of_isDigit hDigit rfl, ne_of_isDigit hDigit rfl,
    ne_of_isDigit hDigit rfl⟩

theorem NumberWritten.starts {n : Number} {text : List Char} (hNumber : NumberWritten n text) :
    StartsItem text := by
  cases hNumber with
  | positive hScan =>
      obtain ⟨c, more, rfl, hDigit⟩ := isDigit_of_scanNumber hScan
      exact startsItem_digit hDigit more
  | negative hScan => exact ⟨'-', _, rfl, by decide⟩

theorem ScalarWritten.starts {json : Json} {text : List Char} (hScalar : ScalarWritten json text) :
    StartsItem text := by
  cases hScalar
  case null => exact ⟨'n', _, rfl, by decide⟩
  case true => exact ⟨'t', _, rfl, by decide⟩
  case false => exact ⟨'f', _, rfl, by decide⟩
  case integer hNumber => exact hNumber.starts
  case float hNumber => exact hNumber.starts
  case string hString =>
    obtain ⟨hChars⟩ := hString
    exact ⟨'\x22', _, rfl, by decide⟩

theorem Written.starts {room : Nat} (json : Json) (text : List Char)
    (hWritten : Written room json text) : StartsItem text := by
  cases room with
  | zero => exact ScalarWritten.starts hWritten
  | succ room =>
      rcases hWritten with hScalar | hContainer
      · exact hScalar.starts
      · cases hContainer
        case array => exact ⟨'[', _, rfl, by decide⟩
        case object => exact ⟨'\x7b', _, rfl, by decide⟩

theorem EntryWritten.starts {written : Json → List Char → Prop} (entry : String × Json)
    (text : List Char) (hEntry : EntryWritten written entry text) : StartsItem text := by
  obtain ⟨⟨hChars⟩, -⟩ := hEntry
  exact ⟨'\x22', _, rfl, by decide⟩

namespace Reader

variable {α σ ι : Type} {blanks rest before middle after lead : List Char} {first : Bool}

theorem takes_nextItem (hLead : Lead first lead) (hBlanks : Blanks blanks) {c : Char}
    (hToken : Cursor.isBlank c = false) (hOther : c ≠ ']') (rest : List Char) :
    (nextItem first).Takes (lead ++ (blanks ++ c :: rest)) true (c :: rest) := by
  intro offset
  have hItem := Cursor.blanks_append hBlanks (startsToken_cons hToken rest)
  cases hLead with
  | first =>
      refine ⟨offset + blanks.length, by simp, ?_⟩
      simp [nextItem, hItem, hOther]
  | @later more hBefore =>
      have hComma := Cursor.blanks_append hBefore
        (startsToken_cons (show Cursor.isBlank ',' = false from rfl) (blanks ++ c :: rest)) offset
      refine ⟨offset + more.length + ','.utf8Size + blanks.length, by simp; omega, ?_⟩
      simp [nextItem, hComma, Cursor.next, hItem, hOther]

theorem takes_nextItem_end (hBlanks : Blanks blanks) (first : Bool) (rest : List Char) :
    (nextItem first).Takes (blanks ++ ']' :: rest) false (']' :: rest) := by
  intro offset
  have hEnd := Cursor.blanks_append hBlanks
    (startsToken_cons (show Cursor.isBlank ']' = false from rfl) rest) offset
  exact ⟨offset + blanks.length, by simp, by simp [nextItem, hEnd]⟩

/-- The loop ends where there is no further item. -/
theorem takes_items_end {step : σ → Reader σ} (hEnd : (nextItem first).Takes before false after)
    (state : σ) : (items step first state).Takes before state after := by
  intro offset
  obtain ⟨later, hNext, hEnd⟩ := hEnd offset
  refine ⟨later, hNext, ?_⟩
  rw [items]
  split
  all_goals
    rename_i hItem
    rw [hEnd] at hItem
    cases hItem
  rfl

/-- One round of the loop, and the rounds after it. -/
theorem takes_items_step {step : σ → Reader σ} {state following final : σ}
    (hItem : (nextItem first).Takes before true middle)
    (hStep : (step state).Takes middle following rest)
    (hRest : (items step false following).Takes rest final after) :
    (items step first state).Takes before final after := by
  intro offset
  obtain ⟨place, hMiddle, hItem⟩ := hItem offset
  obtain ⟨place', hLater, hStep⟩ := hStep place
  obtain ⟨later, hAfter, hRest⟩ := hRest place'
  refine ⟨later, Nat.le_trans hAfter (Nat.le_trans hLater hMiddle), ?_⟩
  rw [items]
  split
  all_goals
    rename_i hOther
    rw [hItem] at hOther
    cases hOther
  simp only [hStep, hRest, Outcome.from]

variable {written : ι → List Char → Prop} {step : σ → Reader σ} {state final : σ}
  {items : List ι} {text : List Char}

/-- A round of a loop takes the text of an item from one state to the next. -/
def RoundTakes (written : ι → List Char → Prop) (step : σ → Reader σ) (state : σ) (item : ι)
    (next : σ) : Prop :=
  ∀ ⦃text rest⦄, written item text → EndsNumber rest →
    (step state).Takes (text ++ rest) next rest

/-- One round for each item, from a state to a state. -/
inductive Rounds (round : σ → ι → σ → Prop) : σ → List ι → σ → Prop where
  | nil {state : σ} : Rounds round state [] state
  | cons {state next final : σ} {item : ι} {rest : List ι} (hFirst : round state item next)
      (hRest : Rounds round next rest final) : Rounds round state (item :: rest) final

/-- A loop over the items of a container: it ends at the closing bracket, and it
takes an item, with what comes before it, by a round and the rounds after it. -/
structure Loops (bracket : Bracket) (written : ι → List Char → Prop) (round : σ → ι → σ → Prop)
    (loop : Bool → σ → Reader σ) : Prop where
  ends : ∀ {blanks}, Blanks blanks → ∀ first state rest,
    (loop first state).Takes (blanks ++ bracket.closing :: rest) state (bracket.closing :: rest)
  goesOn : ∀ {first lead blanks item text rest state next final after}, Lead first lead →
    Blanks blanks → written item text → EndsNumber rest → round state item next →
    (loop false next).Takes rest final after →
    (loop first state).Takes (lead ++ (blanks ++ (text ++ rest))) final after

section Loops

variable {bracket : Bracket} {round : σ → ι → σ → Prop} {loop : Bool → σ → Reader σ}

theorem Loops.takes_nonempty (hLoop : Loops bracket written round loop)
    (hWritten : Separated written items text) (hNonempty : items ≠ [])
    (hRounds : Rounds round state items final) (hLead : Lead first lead) (rest : List Char) :
    (loop first state).Takes (lead ++ (text ++ bracket.closing :: rest)) final
      (bracket.closing :: rest) := by
  induction hWritten generalizing state first lead with
  | nil => exact absurd rfl hNonempty
  | single hBefore hItem hAfter =>
      cases hRounds with
      | cons hRound hNone =>
          cases hNone
          simp only [List.append_assoc]
          exact hLoop.goesOn hLead hBefore hItem
            (endsNumber_blanks hAfter (endsNumber_closing bracket rest)) hRound
            (hLoop.ends hAfter false _ rest)
  | cons hBefore hItem hAfter _ ih =>
      cases hRounds with
      | cons hRound hMore =>
          have hOthers := ih (by simp) hMore (.later hAfter)
          simp only [List.append_assoc, List.cons_append, List.nil_append] at hOthers ⊢
          exact hLoop.goesOn hLead hBefore hItem (endsNumber_blanks hAfter (endsNumber_comma _))
            hRound hOthers

/-- The loop takes all items, up to the closing bracket. -/
theorem Loops.takes (hLoop : Loops bracket written round loop)
    (hWritten : Separated written items text) (hRounds : Rounds round state items final)
    (rest : List Char) :
    (loop true state).Takes (text ++ bracket.closing :: rest) final (bracket.closing :: rest) := by
  by_cases hEmpty : items = []
  · subst hEmpty
    cases hRounds
    cases hWritten with
    | nil hBlanks => exact hLoop.ends hBlanks true _ rest
  · exact hLoop.takes_nonempty hWritten hEmpty hRounds .first rest

end Loops

theorem loops_items (hStarts : ∀ item text, written item text → StartsItem text)
    (step : σ → Reader σ) :
    Loops .array written (RoundTakes written step) fun first state =>
      Reader.items step first state where
  ends hBlanks first state rest := takes_items_end (takes_nextItem_end hBlanks first rest) state
  goesOn {_ _ _ item text rest _ _ _ _} hLead hBlanks hItem hRest hRound hMore := by
    have hTakes := hRound hItem hRest
    obtain ⟨c, more, rfl, hToken, hOther, -⟩ := hStarts item text hItem
    exact takes_items_step (takes_nextItem hLead hBlanks hToken hOther (more ++ rest)) hTakes hMore

theorem takes_items (hStarts : ∀ item text, written item text → StartsItem text)
    (hWritten : Separated written items text)
    (hRounds : Rounds (RoundTakes written step) state items final) (rest : List Char) :
    (Reader.items step true state).Takes (text ++ ']' :: rest) final (']' :: rest) :=
  (loops_items hStarts step).takes hWritten hRounds rest

/-- Items that are understood are kept, the last one first. -/
theorem rounds_list {reader : Reader α} {values : List α}
    (hItems : List.Forall₂ (Understands written reader) items values) (kept : List α) :
    Rounds (RoundTakes written fun (kept : List α) => do
      let value ← reader
      pure (value :: kept)) kept items (values.reverse ++ kept) := by
  induction hItems generalizing kept with
  | nil => exact .nil
  | @cons item value items values hFirst _ ih =>
      have hRest := ih (value :: kept)
      rw [List.reverse_cons, List.append_assoc]
      refine .cons ?_ hRest
      intro text rest hItem hRest
      exact .bind (hFirst .nil hItem hRest) (.pure _ rest)

theorem takes_list {reader : Reader α} {values : List α}
    (hStarts : ∀ item text, written item text → StartsItem text)
    (hItems : List.Forall₂ (Understands written reader) items values)
    (hWritten : Separated written items text) (rest : List Char) :
    (list reader).Takes (text ++ ']' :: rest) values (']' :: rest) := by
  refine .bind (takes_items hStarts hWritten (rounds_list hItems []) rest) ?_
  simpa using Takes.pure values (']' :: rest)

theorem takes_nextEntry (hLead : Lead first lead) (hBlanks : Blanks blanks) (rest : List Char) :
    (nextEntry first).Takes (lead ++ (blanks ++ '\x22' :: rest)) true ('\x22' :: rest) := by
  intro offset
  have hKey := Cursor.blanks_append hBlanks
    (startsToken_cons (show Cursor.isBlank '\x22' = false from rfl) rest)
  cases hLead with
  | first => exact ⟨offset + blanks.length, by simp, by simp [nextEntry, hKey]⟩
  | @later more hBefore =>
      have hComma := Cursor.blanks_append hBefore
        (startsToken_cons (show Cursor.isBlank ',' = false from rfl) (blanks ++ '\x22' :: rest))
        offset
      refine ⟨offset + more.length + ','.utf8Size + blanks.length, by simp; omega, ?_⟩
      simp [nextEntry, hComma, Cursor.next, hKey]

theorem takes_nextEntry_end (hBlanks : Blanks blanks) (first : Bool) (rest : List Char) :
    (nextEntry first).Takes (blanks ++ '\x7d' :: rest) false ('\x7d' :: rest) := by
  intro offset
  have hEnd := Cursor.blanks_append hBlanks
    (startsToken_cons (show Cursor.isBlank '\x7d' = false from rfl) rest) offset
  exact ⟨offset + blanks.length, by simp, by simp [nextEntry, hEnd]⟩

theorem takes_key {key : String} (hKey : StringWritten key text) (rest : List Char) :
    Reader.key.Takes (text ++ rest) key rest := by
  obtain ⟨hChars⟩ := hKey
  simp only [List.cons_append, List.append_assoc, List.nil_append]
  exact .bind (.advance '\x22' _) (.stringTail hChars rest)

theorem takes_colon (hBlanks : Blanks blanks) (rest : List Char) :
    colon.Takes (blanks ++ ':' :: rest) () rest :=
  .bind (.peekToken hBlanks rfl rest) (.advance ':' rest)

/-- The loop ends where there is no further entry. -/
theorem takes_entries_end {step : σ → String → Reader σ}
    (hEnd : (nextEntry first).Takes before false after) (state : σ) :
    (entries step first state).Takes before state after := by
  intro offset
  obtain ⟨later, hNext, hEnd⟩ := hEnd offset
  refine ⟨later, hNext, ?_⟩
  rw [entries]
  split
  all_goals
    rename_i hEntry
    rw [hEnd] at hEntry
    cases hEntry
  rfl

/-- One round of the loop, and the rounds after it. -/
theorem takes_entries_step {step : σ → String → Reader σ} {state following final : σ}
    (hEntry : (nextEntry first).Takes before true middle)
    (hStep : (Reader.key >>= step state).Takes middle following rest)
    (hRest : (entries step false following).Takes rest final after) :
    (entries step first state).Takes before final after := by
  intro offset
  obtain ⟨place, hMiddle, hEntry⟩ := hEntry offset
  obtain ⟨place', hLater, hStep⟩ := hStep place
  obtain ⟨later, hAfter, hRest⟩ := hRest place'
  refine ⟨later, Nat.le_trans hAfter (Nat.le_trans hLater hMiddle), ?_⟩
  rw [entries]
  split
  all_goals
    rename_i hOther
    rw [hEntry] at hOther
    cases hOther
  simp only [hStep, hRest, Outcome.from]

/-- A round of a loop takes, behind a key, the colon and the value of an entry
from one state to the next. -/
def EntryRoundTakes (written : Json → List Char → Prop) (step : σ → String → Reader σ) (state : σ)
    (entry : String × Json) (next : σ) : Prop :=
  ∀ ⦃before after text rest⦄, Blanks before → Blanks after → written entry.2 text →
    EndsNumber rest →
    (step state entry.1).Takes (before ++ ':' :: (after ++ (text ++ rest))) next rest

variable {writtenValue : Json → List Char → Prop} {stepEntry : σ → String → Reader σ}
  {read : List (String × Json)}

theorem loops_entries (writtenValue : Json → List Char → Prop) (step : σ → String → Reader σ) :
    Loops .object (EntryWritten writtenValue) (EntryRoundTakes writtenValue step)
      fun first state => entries step first state where
  ends hBlanks first state rest := takes_entries_end (takes_nextEntry_end hBlanks first rest) state
  goesOn hLead hBlanks hEntry hRest hRound hMore := by
    obtain ⟨hKey, hBefore, hAfter, hValue⟩ := hEntry
    have hStep := Takes.bind (takes_key hKey _) (hRound hBefore hAfter hValue hRest)
    obtain ⟨hChars⟩ := hKey
    simp only [List.append_assoc, List.cons_append, List.nil_append] at hStep ⊢
    exact takes_entries_step (takes_nextEntry hLead hBlanks _) hStep hMore

theorem takes_entries (hWritten : Separated (EntryWritten writtenValue) read text)
    (hRounds : Rounds (EntryRoundTakes writtenValue stepEntry) state read final)
    (rest : List Char) :
    (entries stepEntry true state).Takes (text ++ '\x7d' :: rest) final ('\x7d' :: rest) :=
  (loops_entries writtenValue stepEntry).takes hWritten hRounds rest

theorem takes_inside_array {body : Reader α} {value : α}
    (hBody : body.Takes before value (']' :: rest)) :
    (inside leaveArray body).Takes before value rest := by
  intro offset
  obtain ⟨place, hEnd, hBody⟩ := hBody offset
  have hLeave : leaveArray ⟨']' :: rest, place⟩ =
      ⟨⟨rest, place + ']'.utf8Size⟩, by simp, none⟩ := rfl
  refine ⟨place + ']'.utf8Size, Nat.le_trans (by simp) hEnd, ?_⟩
  simp only [inside, hBody, hLeave]

theorem takes_inside_object {body : Reader α} {value : α}
    (hBody : body.Takes before value ('\x7d' :: rest)) :
    (inside leaveObject body).Takes before value rest := by
  intro offset
  obtain ⟨place, hEnd, hBody⟩ := hBody offset
  have hLeave : leaveObject ⟨'\x7d' :: rest, place⟩ =
      ⟨⟨rest, place + '\x7d'.utf8Size⟩, by simp, none⟩ := rfl
  refine ⟨place + '\x7d'.utf8Size, Nat.le_trans (by simp) hEnd, ?_⟩
  simp only [inside, hBody, hLeave]

/-- Without room there are only values that are no containers. -/
theorem value_zero :
    value 0 = (do
      let start ← token
      match start with
      | .null => pure .null
      | .boolean b => pure (.boolean b)
      | .number (.integer n) => pure (.integer n)
      | .number (.float x) => pure (.float x)
      | .string s => pure (.string s)
      | .arrayStart => failNext .nestedTooDeep
      | .objectStart => failNext .nestedTooDeep) := by
  delta value
  refine congrArg (token >>= ·) (funext fun start => ?_)
  rcases start with _ | _ | ⟨_ | _⟩ | _ | _ | _ <;> rfl

/-- A container leaves one level less room to the values in it. -/
theorem value_succ (room : Nat) :
    value (room + 1) = (do
      let start ← token
      match start with
      | .null => pure .null
      | .boolean b => pure (.boolean b)
      | .number (.integer n) => pure (.integer n)
      | .number (.float x) => pure (.float x)
      | .string s => pure (.string s)
      | .arrayStart => do
        advance
        let items ← inside leaveArray (list (value room))
        pure (.array items)
      | .objectStart => do
        advance
        let reversed ← inside leaveObject (entries (fun read key => do
          colon
          let entry ← value room
          pure ((key, entry) :: read)) true [])
        pure (.object reversed.reverse)) := by
  delta value
  refine congrArg (token >>= ·) (funext fun start => ?_)
  rcases start with _ | _ | ⟨_ | _⟩ | _ | _ | _ <;> rfl

theorem takes_value_scalar {json : Json} (hScalar : ScalarWritten json text) (room : Nat)
    (hBlanks : Blanks blanks) (hRest : EndsNumber rest) :
    (value room).Takes (blanks ++ (text ++ rest)) json rest := by
  have hToken : ∀ t, scalarToken json = some t → token.Takes (blanks ++ (text ++ rest)) t rest :=
    fun t hToken => takes_token_scalar hScalar hToken hBlanks hRest
  cases room with
  | zero =>
      rw [value_zero]
      cases hScalar <;> exact .bind (hToken _ rfl) (.pure _ rest)
  | succ room =>
      rw [value_succ]
      cases hScalar <;> exact .bind (hToken _ rfl) (.pure _ rest)

/-- Entries whose values are understood are kept, the last one first. -/
theorem rounds_values {room : Nat}
    (hValues : ∀ json, Understands (Written room) (value room) json json)
    (all kept : List (String × Json)) :
    Rounds (EntryRoundTakes (Written room) fun (kept : List (String × Json)) key => do
      colon
      let entry ← value room
      pure ((key, entry) :: kept)) kept all (all.reverse ++ kept) := by
  induction all generalizing kept with
  | nil => exact .nil
  | cons entry rest ih =>
      have hRest := ih (entry :: kept)
      rw [List.reverse_cons, List.append_assoc]
      refine .cons ?_ hRest
      intro before after text behind hBefore hAfter hWritten hBehind
      exact .bind (takes_colon hBefore _)
        (.bind (hValues entry.2 hAfter hWritten hBehind) (.pure _ behind))

/-- Every value is read as itself, whichever of its texts it is written in. -/
theorem understands_value (room : Nat) (json : Json) :
    Understands (Written room) (value room) json json := by
  induction room generalizing json with
  | zero => exact fun blanks text rest hBlanks hWritten hRest =>
      takes_value_scalar hWritten 0 hBlanks hRest
  | succ room ih =>
      intro blanks text rest hBlanks hWritten hRest
      rcases hWritten with hScalar | hContainer
      · exact takes_value_scalar hScalar _ hBlanks hRest
      · cases hContainer with
        | @array items text hItems =>
            have hList := takes_list Written.starts
              (List.forall₂_same.mpr fun item _ => ih item) hItems rest
            simp only [List.cons_append, List.append_assoc, List.nil_append]
            rw [value_succ]
            exact .bind (takes_token_array hBlanks _)
              (.bind (.advance '[' _) (.bind (takes_inside_array hList) (.pure _ rest)))
        | @object read text hEntries =>
            have hLoop := takes_entries hEntries (rounds_values ih read []) rest
            simp only [List.cons_append, List.append_assoc, List.nil_append]
            rw [value_succ]
            refine .bind (takes_token_object hBlanks _)
              (.bind (.advance '\x7b' _) (.bind (takes_inside_object hLoop) ?_))
            simpa using Takes.pure (Json.object read) rest

end Reader

end PageGen.Json
