import PageGen.Number.Text

/-! The characters of number texts. They are few, so that a number can stand
bare wherever quotes, commas and brackets mean something. -/
namespace PageGen

/-- The characters that numbers are written with, the words for those that are
not finite included. -/
def IsNumberChar (c : Char) : Prop := c.isAlphanum = true ∨ c = '.' ∨ c = '-' ∨ c = '+'

instance (c : Char) : Decidable (IsNumberChar c) := inferInstanceAs (Decidable (_ ∨ _))

theorem isNumberChar_of_isDigit {c : Char} (hDigit : c.isDigit = true) : IsNumberChar c := by
  simp [IsNumberChar, Char.isAlphanum, hDigit]

theorem isNumberChar_of_mem_toDigits {c : Char} {n : Nat} (hMem : c ∈ Nat.toDigits 10 n) :
    IsNumberChar c :=
  isNumberChar_of_isDigit (Nat.isDigit_of_mem_toDigits (by decide) (by decide) hMem)

theorem isNumberChar_of_mem_signChars {c : Char} {negative : Bool}
    (hMem : c ∈ signChars negative) : IsNumberChar c := by
  cases negative with
  | false => simp [signChars] at hMem
  | true =>
      obtain rfl : c = '-' := by simpa [signChars] using hMem
      simp [IsNumberChar]

namespace Decimal

variable {decimal : Decimal} {c : Char}

theorem isNumberChar_of_mem_digitChars (hMem : c ∈ decimal.digitChars) : IsNumberChar c :=
  isNumberChar_of_mem_toDigits hMem

theorem isNumberChar_of_mem_zeros {count : Nat} (hMem : c ∈ List.replicate count '0') :
    IsNumberChar c := by
  rw [List.eq_of_mem_replicate hMem]
  exact isNumberChar_of_isDigit rfl

theorem isNumberChar_of_mem_positional (hMem : c ∈ decimal.positional) : IsNumberChar c := by
  unfold positional at hMem
  simp only at hMem
  split at hMem
  · rcases List.mem_append.mp hMem with hDigit | hZero
    · exact isNumberChar_of_mem_digitChars hDigit
    · exact isNumberChar_of_mem_zeros hZero
  · split at hMem
    · rcases List.mem_append.mp hMem with hDigit | hRest
      · exact isNumberChar_of_mem_digitChars (List.mem_of_mem_take hDigit)
      · rcases List.mem_cons.mp hRest with rfl | hDigit
        · simp [IsNumberChar]
        · exact isNumberChar_of_mem_digitChars (List.mem_of_mem_drop hDigit)
    · rcases List.mem_cons.mp hMem with rfl | hRest
      · exact isNumberChar_of_isDigit rfl
      · rcases List.mem_cons.mp hRest with rfl | hDigits
        · simp [IsNumberChar]
        · rcases List.mem_append.mp hDigits with hZero | hDigit
          · exact isNumberChar_of_mem_zeros hZero
          · exact isNumberChar_of_mem_digitChars hDigit

theorem isNumberChar_of_mem_scientific (hMem : c ∈ decimal.scientific) : IsNumberChar c := by
  have hDigits := @isNumberChar_of_mem_digitChars decimal
  unfold scientific at hMem
  simp only [List.mem_append, List.mem_cons] at hMem
  rcases hMem with hMantissa | rfl | rfl | hExponent
  · split at hMantissa
    · simp at hMantissa
    · rename_i digit hChars
      exact hDigits (hChars ▸ hMantissa)
    · rename_i digit digits hChars
      rcases List.mem_cons.mp hMantissa with rfl | hRest
      · exact hDigits (hChars ▸ List.mem_cons_self)
      · rcases List.mem_cons.mp hRest with rfl | hRest
        · simp [IsNumberChar]
        · exact hDigits (hChars ▸ List.mem_cons_of_mem _ hRest)
  · exact .inl rfl
  · split <;> simp [IsNumberChar]
  · exact isNumberChar_of_mem_toDigits hExponent

theorem positional_ne_nil (decimal : Decimal) : decimal.positional ≠ [] := by
  unfold positional
  simp only
  split
  · exact List.append_ne_nil_of_left_ne_nil Nat.toDigits_ne_nil _
  · split
    · simp
    · simp

theorem scientific_ne_nil (decimal : Decimal) : decimal.scientific ≠ [] := by
  simp [scientific]

end Decimal

theorem NumberText.isNumberChar_of_mem {c : Char} {bits : UInt64}
    (hMem : c ∈ NumberText.ofBits bits) : IsNumberChar c := by
  unfold NumberText.ofBits at hMem
  split at hMem
  · have hWord : ∀ c ∈ "NaN".toList, IsNumberChar c := by simp [IsNumberChar]
    exact hWord c hMem
  · have hWord : ∀ c ∈ "Infinity".toList, IsNumberChar c := by simp [IsNumberChar]
    rcases List.mem_append.mp hMem with hSign | hLetter
    · exact isNumberChar_of_mem_signChars hSign
    · exact hWord c hLetter
  · split at hMem
    · obtain rfl := List.mem_singleton.mp hMem
      exact isNumberChar_of_isDigit rfl
    · simp only at hMem
      rcases List.mem_append.mp hMem with hSign | hDecimal
      · exact isNumberChar_of_mem_signChars hSign
      · split at hDecimal
        · exact Decimal.isNumberChar_of_mem_scientific hDecimal
        · exact Decimal.isNumberChar_of_mem_positional hDecimal

theorem NumberText.ofBits_ne_nil (bits : UInt64) : NumberText.ofBits bits ≠ [] := by
  unfold NumberText.ofBits
  split
  · decide
  · simp
  · split
    · simp
    · simp only
      refine List.append_ne_nil_of_right_ne_nil _ ?_
      split
      · exact Decimal.scientific_ne_nil _
      · exact Decimal.positional_ne_nil _

end PageGen
