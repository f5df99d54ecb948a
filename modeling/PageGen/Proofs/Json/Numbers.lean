import PageGen.Proofs.Json.Scanning

/-! Numbers inside of a text. What follows a number does not change how it is
read, as long as it cannot belong to it, and a number that is read is also one
that is passed over. -/
namespace PageGen.Json

/-- The scanner does not look behind what it consumes, except for whether the
number goes on. -/
def Extends {α : Type} (scan : Cursor → Scan α) : Prop :=
  ∀ ⦃text offset value next⦄, scan ⟨text, offset⟩ = .done value next →
    ∀ rest, EndsNumber rest → ∀ offset', ∃ later,
      scan ⟨text ++ rest, offset'⟩ = .done value ⟨next.rest ++ rest, later⟩

variable {text rest : List Char}

theorem Cursor.digits_append (hRest : EndsNumber rest) (text : List Char) (offset offset' : Nat) :
    Cursor.digits ⟨text ++ rest, offset'⟩ = Cursor.digits ⟨text, offset⟩ := by
  have hNone : rest.takeWhile Char.isDigit = [] := by
    cases rest with
    | nil => rfl
    | cons c rest => simp [(hRest c rfl).1]
  unfold Cursor.digits
  induction text with
  | nil => exact hNone
  | cons c text ih => simp only [List.cons_append, List.takeWhile_cons, ih]

theorem Cursor.length_digits_le (cursor : Cursor) : cursor.digits.length ≤ cursor.rest.length :=
  (List.takeWhile_prefix _).length_le

theorem Cursor.drop_append {count : Nat} (hCount : count ≤ text.length) (rest : List Char)
    (offset : Nat) :
    Cursor.drop ⟨text ++ rest, offset⟩ count = ⟨text.drop count ++ rest, offset + count⟩ := by
  rw [Cursor.drop, List.drop_append_of_le_length hCount]

theorem Cursor.atExponent_append (hRest : EndsNumber rest) (text : List Char)
    (offset offset' : Nat) :
    Cursor.atExponent ⟨text ++ rest, offset'⟩ = Cursor.atExponent ⟨text, offset⟩ := by
  cases text with
  | cons c text => rfl
  | nil =>
      cases rest with
      | nil => rfl
      | cons c rest => simp [Cursor.atExponent, hRest c rfl]

theorem extends_floatOfParts (negative : Bool) (value : Nat) (exponent : Int) :
    Extends (floatOfParts negative value exponent) := by
  intro text offset number next hScan rest hRest offset'
  unfold floatOfParts at hScan ⊢
  split at hScan
  · obtain ⟨rfl, rfl⟩ := Scan.done.inj hScan
    exact ⟨offset', rfl⟩
  · cases hScan

/-- The sign of an exponent is decided by the first character, if there is one. -/
theorem Cursor.exponentSign_append (hText : text ≠ []) (rest : List Char) (offset offset' : Nat) :
    ∃ down start first later,
      Cursor.exponentSign ⟨text, offset⟩ = (down, ⟨start, first⟩) ∧
        Cursor.exponentSign ⟨text ++ rest, offset'⟩ = (down, ⟨start ++ rest, later⟩) := by
  obtain ⟨c, more, rfl⟩ := List.exists_cons_of_ne_nil hText
  by_cases hPlus : c = '+'
  · subst hPlus
    exact ⟨_, more, _, _, rfl, rfl⟩
  · by_cases hMinus : c = '-'
    · subst hMinus
      exact ⟨_, more, _, _, rfl, rfl⟩
    · refine ⟨false, c :: more, offset, offset', ?_, ?_⟩ <;>
        simp [Cursor.exponentSign, hPlus, hMinus]

theorem extends_scanExponent (negative : Bool) (value : Nat) (exponent : Int) :
    Extends (scanExponent negative value exponent) := by
  intro text offset number next hScan rest hRest offset'
  have hText : text ≠ [] := by
    rintro rfl
    simp [scanExponent, Cursor.exponentSign] at hScan
  obtain ⟨down, start, first, later, hSign, hSign'⟩ :=
    Cursor.exponentSign_append hText rest offset offset'
  have hDigits := Cursor.digits_append hRest start first later
  have hBound := Cursor.length_digits_le ⟨start, first⟩
  have hDrop := Cursor.drop_append hBound rest later
  unfold scanExponent at hScan ⊢
  simp only [hSign, hSign', hDigits] at hScan ⊢
  cases start with
  | nil => simp at hScan
  | cons c more =>
      cases hAll : Cursor.digits ⟨c :: more, first⟩ with
      | nil => simp [hAll] at hScan
      | cons d digits =>
          rw [hAll] at hDrop
          simp only [hAll, List.cons_append] at hScan ⊢
          split at hScan
          · rename_i hKept
            split at hScan
            · cases hScan
            · rename_i hSmall
              obtain ⟨rfl, rfl⟩ := Scan.done.inj hScan
              rw [if_pos hKept, if_neg hSmall]
              exact ⟨_, congrArg _ hDrop⟩
          · rename_i hKept
            rw [if_neg hKept]
            exact hDrop ▸ extends_floatOfParts _ _ _ hScan rest hRest _

theorem extends_scanFloatEnd (negative : Bool) (value : Nat) (exponent : Int) :
    Extends (scanFloatEnd negative value exponent) := by
  intro text offset number next hScan rest hRest offset'
  unfold scanFloatEnd at hScan ⊢
  rw [Cursor.atExponent_append hRest text offset offset']
  split at hScan
  · rename_i hExponent
    have hText : 1 ≤ text.length := by
      cases text with
      | nil => simp [Cursor.atExponent] at hExponent
      | cons c text => simp
    rw [if_pos hExponent, Cursor.drop_append hText]
    exact extends_scanExponent _ _ _ hScan rest hRest _
  · rename_i hExponent
    rw [if_neg hExponent]
    exact extends_floatOfParts _ _ _ hScan rest hRest _

/-- Behind the digits of the integer part, where there is no point. -/
theorem scanNumberEnd_eq (hPoint : ∀ c ∈ text.head?, c ≠ '.') (negative : Bool)
    (value dropped offset : Nat) :
    scanNumberEnd negative value dropped ⟨text, offset⟩ =
      if Cursor.atExponent ⟨text, offset⟩ || decide (0 < dropped) then
        scanFloatEnd negative value dropped ⟨text, offset⟩
      else .done (integerOfParts negative value) ⟨text, offset⟩ := by
  cases text with
  | nil => rfl
  | cons c text => simp [scanNumberEnd, hPoint c rfl]

theorem extends_scanNumberEnd (negative : Bool) (value dropped : Nat) :
    Extends (scanNumberEnd negative value dropped) := by
  intro text offset number next hScan rest hRest offset'
  by_cases hPoint : ∀ c ∈ text.head?, c ≠ '.'
  · have hPoint' : ∀ c ∈ (text ++ rest).head?, c ≠ '.' := by
      cases text with
      | nil => exact fun c hMem => (hRest c hMem).2.1
      | cons c text => exact hPoint
    rw [scanNumberEnd_eq hPoint] at hScan
    rw [scanNumberEnd_eq hPoint', Cursor.atExponent_append hRest text offset offset']
    split at hScan
    · rename_i hFloat
      rw [if_pos hFloat]
      exact extends_scanFloatEnd _ _ _ hScan rest hRest _
    · rename_i hInteger
      obtain ⟨rfl, rfl⟩ := Scan.done.inj hScan
      rw [if_neg hInteger]
      exact ⟨offset', rfl⟩
  · obtain ⟨more, rfl⟩ : ∃ more, text = '.' :: more := by
      cases text with
      | nil => simp at hPoint
      | cons c more =>
          obtain rfl : c = '.' := by simpa using hPoint
          exact ⟨more, rfl⟩
    have hDigits := Cursor.digits_append hRest more (offset + 1) (offset' + 1)
    have hBound := Cursor.length_digits_le ⟨more, offset + 1⟩
    have hDrop := Cursor.drop_append hBound rest (offset' + 1)
    have hFirst : Cursor.drop ⟨'.' :: more, offset⟩ 1 = ⟨more, offset + 1⟩ := rfl
    have hFirst' : Cursor.drop ⟨'.' :: (more ++ rest), offset'⟩ 1 =
        ⟨more ++ rest, offset' + 1⟩ := rfl
    unfold scanNumberEnd at hScan ⊢
    simp only [List.cons_append, hFirst, hFirst', hDigits] at hScan ⊢
    cases more with
    | nil => simp at hScan
    | cons c more =>
        cases hAll : Cursor.digits ⟨c :: more, offset + 1⟩ with
        | nil => simp [hAll] at hScan
        | cons d digits =>
            rw [hAll] at hDrop
            simp only [hAll, List.cons_append] at hScan ⊢
            exact hDrop ▸ extends_scanFloatEnd _ _ _ hScan rest hRest _

/-- A first digit that is no zero in front of others. -/
theorem scanNumber_eq {cursor : Cursor} {c d : Char} {more digits : List Char}
    (hRest : cursor.rest = c :: more) (hDigits : cursor.digits = d :: digits) (negative : Bool) :
    scanNumber negative cursor =
      if d = '0' ∧ digits ≠ [] then .fault .invalidNumber (cursor.offset + 2)
      else
        let (value, kept) := gather significandLimit (d :: digits) 0
        scanNumberEnd negative value ((d :: digits).length - kept)
          (cursor.drop (d :: digits).length) := by
  unfold scanNumber
  rw [hRest, hDigits]
  by_cases hZero : d = '0'
  · subst hZero
    cases digits <;> simp
  · simp [hZero]

theorem extends_scanNumber (negative : Bool) : Extends (scanNumber negative) := by
  intro text offset number next hScan rest hRest offset'
  have hDigits := Cursor.digits_append hRest text offset offset'
  have hBound := Cursor.length_digits_le ⟨text, offset⟩
  have hDrop := Cursor.drop_append hBound rest offset'
  cases text with
  | nil => simp [scanNumber] at hScan
  | cons c more =>
      cases hAll : Cursor.digits ⟨c :: more, offset⟩ with
      | nil => simp [scanNumber, hAll] at hScan
      | cons d digits =>
          rw [hAll] at hDrop hDigits
          rw [scanNumber_eq rfl hAll] at hScan
          rw [scanNumber_eq rfl hDigits]
          split at hScan
          · cases hScan
          · rename_i hZero
            rw [if_neg hZero]
            exact hDrop ▸ extends_scanNumberEnd _ _ _ hScan rest hRest _

variable {negative : Bool} {value dropped : Nat} {exponent : Int} {number : Number}
  {cursor next : Cursor}

theorem next_of_floatOfParts
    (hScan : floatOfParts negative value exponent cursor = .done number next) : next = cursor := by
  unfold floatOfParts at hScan
  split at hScan
  · exact (Scan.done.inj hScan).2.symm
  · cases hScan

/-- Behind the digits, what is read as an exponent or as none is passed over. -/
theorem skipExponent_of_scanFloatEnd
    (hScan : scanFloatEnd negative value exponent cursor = .done number next) :
    skipExponent cursor = .done () next := by
  unfold scanFloatEnd at hScan
  unfold skipExponent
  split at hScan
  · rename_i hExponent
    rw [if_pos hExponent]
    unfold scanExponent at hScan
    simp only at hScan ⊢
    cases hRest : (cursor.drop 1).exponentSign.2.rest with
    | nil => simp [hRest] at hScan
    | cons c more =>
        cases hDigits : (cursor.drop 1).exponentSign.2.digits with
        | nil => simp [hRest, hDigits] at hScan
        | cons d digits =>
            simp only [hRest, hDigits] at hScan ⊢
            split at hScan
            · split at hScan
              · cases hScan
              · rw [(Scan.done.inj hScan).2]
            · rw [next_of_floatOfParts hScan]
  · rename_i hExponent
    rw [if_neg hExponent, next_of_floatOfParts hScan]

/-- Passing over a fraction, if there is one, and an exponent. -/
def skipNumberEnd (cursor : Cursor) : Scan Unit :=
  match cursor.rest with
  | '.' :: _ =>
    let start := cursor.drop 1
    match start.digits with
    | [] => .fault .invalidNumber start.peeked
    | digits => skipExponent (start.drop digits.length)
  | _ => skipExponent cursor

theorem skipNumber_eq {d : Char} {digits : List Char} (hDigits : cursor.digits = d :: digits)
    (hZero : ¬(d = '0' ∧ digits ≠ [])) :
    skipNumber cursor = skipNumberEnd (cursor.drop (d :: digits).length) := by
  unfold skipNumber
  rw [hDigits]
  by_cases hFirst : d = '0'
  · obtain rfl : digits = [] := Decidable.not_not.mp fun hMore => hZero ⟨hFirst, hMore⟩
    subst hFirst
    rfl
  · split
    · rename_i hNone
      cases hNone
    · rename_i hMore
      exact absurd (List.cons.inj hMore).1 hFirst
    · rfl

theorem skipNumberEnd_of_scanNumberEnd
    (hScan : scanNumberEnd negative value dropped cursor = .done number next) :
    skipNumberEnd cursor = .done () next := by
  obtain ⟨text, offset⟩ := cursor
  unfold skipNumberEnd
  split
  · rename_i more hRest
    obtain rfl : text = '.' :: more := hRest
    unfold scanNumberEnd at hScan
    simp only at hScan ⊢
    cases hDigits : (Cursor.drop ⟨'.' :: more, offset⟩ 1).digits with
    | nil => cases more <;> simp [hDigits] at hScan
    | cons d digits =>
        cases more with
        | nil => simp at hScan
        | cons c more =>
            simp only [hDigits] at hScan ⊢
            exact skipExponent_of_scanFloatEnd hScan
  · rename_i hPoint
    have hPoint' : ∀ c ∈ text.head?, c ≠ '.' := by
      cases text with
      | nil => simp
      | cons c text =>
          intro d hMem hSame
          obtain rfl : c = d := Option.some.inj hMem
          exact hPoint text (by rw [hSame])
    rw [scanNumberEnd_eq hPoint'] at hScan
    split at hScan
    · exact skipExponent_of_scanFloatEnd hScan
    · rename_i hInteger
      rw [← (Scan.done.inj hScan).2]
      rw [Bool.or_eq_true, not_or] at hInteger
      rw [skipExponent, if_neg hInteger.1]

/-- A number that is read is passed over. -/
theorem skipNumber_of_scanNumber (hScan : scanNumber negative cursor = .done number next) :
    skipNumber cursor = .done () next := by
  cases hRest : cursor.rest with
  | nil => simp [scanNumber, hRest] at hScan
  | cons c more =>
      cases hDigits : cursor.digits with
      | nil => simp [scanNumber, hRest, hDigits] at hScan
      | cons d digits =>
          rw [scanNumber_eq hRest hDigits] at hScan
          split at hScan
          · cases hScan
          · rename_i hZero
            rw [skipNumber_eq hDigits hZero]
            exact skipNumberEnd_of_scanNumberEnd hScan

theorem ne_of_isDigit {c d : Char} (hDigit : c.isDigit = true) (hOther : d.isDigit = false) :
    c ≠ d := by
  rintro rfl
  exact Bool.false_ne_true (hOther.symm.trans hDigit)

theorem isBlank_of_isDigit {c : Char} (hDigit : c.isDigit = true) : Cursor.isBlank c = false := by
  simp only [Cursor.isBlank, Bool.or_eq_false_iff, beq_eq_false_iff_ne]
  exact ⟨⟨⟨ne_of_isDigit hDigit rfl, ne_of_isDigit hDigit rfl⟩, ne_of_isDigit hDigit rfl⟩,
    ne_of_isDigit hDigit rfl⟩

/-- A number starts with a digit. -/
theorem isDigit_of_scanNumber {text : List Char} {offset : Nat}
    (hScan : scanNumber negative ⟨text, offset⟩ = .done number next) :
    ∃ c rest, text = c :: rest ∧ c.isDigit = true := by
  cases text with
  | nil => simp [scanNumber] at hScan
  | cons c rest =>
      refine ⟨c, rest, rfl, ?_⟩
      cases hDigit : c.isDigit with
      | true => rfl
      | false => simp [scanNumber, Cursor.digits, hDigit] at hScan

/-- A number that was read up to the end of its text is read as that number in
front of anything that cannot belong to it. -/
theorem scans_number {text : List Char} {bytes : Nat}
    (hScan : scanNumber negative ⟨text, 0⟩ = .done number ⟨[], bytes⟩) (hRest : EndsNumber rest) :
    Scans (scanNumber negative) (text ++ rest) number rest :=
  fun offset => extends_scanNumber negative hScan rest hRest offset

theorem scans_skipNumber {text : List Char} {bytes : Nat}
    (hScan : scanNumber negative ⟨text, 0⟩ = .done number ⟨[], bytes⟩) (hRest : EndsNumber rest) :
    Scans skipNumber (text ++ rest) () rest := by
  intro offset
  obtain ⟨later, hRead⟩ := scans_number hScan hRest offset
  exact ⟨later, skipNumber_of_scanNumber hRead⟩

end PageGen.Json
