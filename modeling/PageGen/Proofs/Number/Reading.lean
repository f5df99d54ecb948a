import PageGen.Proofs.Number.Forms

/-! Number texts, read as exact numbers. A text in the form for a position of the
point is read as the number that the digits and the point make. -/
namespace PageGen

namespace NumberText

def readDigits? (digits : List Char) : Option Nat :=
  if digits ≠ [] ∧ ∀ c ∈ digits, c.isDigit = true then some (Nat.ofDigitChars 10 digits 0)
  else none

/-- Reads an exponent with its sign. Where there is none, the text ends. -/
def readExponent? : List Char → Option Int
  | [] => some 0
  | 'e' :: '+' :: digits => (readDigits? digits).map Int.ofNat
  | 'e' :: '-' :: digits => (readDigits? digits).map Int.negOfNat
  | _ => none

/-- What comes behind the digits before a point: the digits behind it, and the rest. -/
def splitFraction : List Char → List Char × List Char
  | '.' :: more => more.span Char.isDigit
  | rest => ([], rest)

/-- Reads a number without a sign. There are digits before the point. -/
def readUnsigned? (text : List Char) : Option Decimal :=
  let (whole, behind) := text.span Char.isDigit
  let (fraction, rest) := splitFraction behind
  if whole = [] then none
  else
    (readExponent? rest).map fun exponent =>
      ⟨Nat.ofDigitChars 10 (whole ++ fraction) 0, exponent - fraction.length⟩

/-- Reads a number: a sign if it is negative, digits, of which some may come behind a
point, and an exponent if there is one. -/
def readNumber? : List Char → Option ℚ
  | '-' :: text => (readUnsigned? text).map fun decimal => -decimal.value
  | text => (readUnsigned? text).map Decimal.value

variable {digits whole fraction rest : List Char}

/-- What may come behind the digits of a number: nothing, or an exponent. -/
def EndsDigits (rest : List Char) : Prop := ∀ c ∈ rest.head?, c = 'e'

theorem span_digits (hDigits : ∀ c ∈ digits, c.isDigit = true)
    (hRest : ∀ c ∈ rest.head?, c.isDigit = false) :
    (digits ++ rest).span Char.isDigit = (digits, rest) := by
  have hStop : rest.span Char.isDigit = ([], rest) := by
    cases rest with
    | nil => rfl
    | cons c more => simp [List.span_eq_takeWhile_dropWhile, hRest c rfl]
  rw [List.span_eq_takeWhile_dropWhile, Prod.mk.injEq] at hStop ⊢
  rw [List.takeWhile_append_of_pos hDigits, List.dropWhile_append_of_pos hDigits, hStop.1,
    hStop.2, List.append_nil]
  exact ⟨rfl, rfl⟩

theorem readUnsigned?_whole (hWhole : ∀ c ∈ whole, c.isDigit = true) (hSome : whole ≠ [])
    (hRest : EndsDigits rest) :
    readUnsigned? (whole ++ rest) =
      (readExponent? rest).map fun exponent => ⟨Nat.ofDigitChars 10 whole 0, exponent⟩ := by
  have hSpan := span_digits hWhole fun c hMem => by rw [hRest c hMem]; rfl
  have hSplit : splitFraction rest = ([], rest) := by
    cases rest with
    | nil => rfl
    | cons c more =>
        obtain rfl : c = 'e' := hRest c rfl
        rfl
  unfold readUnsigned?
  rw [hSpan]
  simp only [hSplit, if_neg hSome, List.append_nil, List.length_nil, Nat.cast_zero, sub_zero]

theorem readUnsigned?_fraction (hWhole : ∀ c ∈ whole, c.isDigit = true) (hSome : whole ≠ [])
    (hFraction : ∀ c ∈ fraction, c.isDigit = true) (hRest : EndsDigits rest) :
    readUnsigned? (whole ++ '.' :: (fraction ++ rest)) =
      (readExponent? rest).map fun exponent =>
        ⟨Nat.ofDigitChars 10 (whole ++ fraction) 0, exponent - fraction.length⟩ := by
  have hSpan : (whole ++ '.' :: (fraction ++ rest)).span Char.isDigit = (whole, _) :=
    span_digits hWhole fun c hMem => by
      obtain rfl : '.' = c := Option.some.inj hMem
      rfl
  have hSplit : splitFraction ('.' :: (fraction ++ rest)) = (fraction, rest) :=
    span_digits hFraction fun c hMem => by rw [hRest c hMem]; rfl
  unfold readUnsigned?
  rw [hSpan]
  simp only [hSplit, if_neg hSome]

theorem readExponent?_sign (point : Int) :
    readExponent? ('e' :: (if 0 < point then '+' else '-') ::
      Nat.toDigits 10 (point - 1).natAbs) = some (point - 1) := by
  have hRead : readDigits? (Nat.toDigits 10 (point - 1).natAbs) = some (point - 1).natAbs := by
    rw [readDigits?, if_pos ⟨Nat.toDigits_ne_nil, fun c hMem =>
      Nat.isDigit_of_mem_toDigits (by decide) (by decide) hMem⟩, Nat.ofDigitChars_ten_toDigits]
  split_ifs with hSign
  · rw [readExponent?, hRead, Option.map_some, Option.some.injEq, Int.ofNat_eq_natCast]
    omega
  · rw [readExponent?, hRead, Option.map_some, Option.some.injEq, Int.negOfNat_eq,
      Int.ofNat_eq_natCast]
    omega

section Layouts

variable (hDigits : ∀ c ∈ digits, c.isDigit = true) (hSome : digits ≠ [])

theorem isDigit_of_mem_zeros {count : Nat} : ∀ c ∈ List.replicate count '0', c.isDigit = true := by
  intro c hMem
  rw [List.eq_of_mem_replicate hMem]
  rfl

theorem endsDigits_nil : EndsDigits [] := fun _ hMem => nomatch hMem

theorem endsDigits_exponent (sign : Char) (rest : List Char) :
    EndsDigits ('e' :: sign :: rest) := fun _ hMem => (Option.some.inj hMem).symm

include hDigits

theorem readUnsigned?_small (count : Nat) :
    readUnsigned? ('0' :: '.' :: (List.replicate count '0' ++ digits)) =
      some ⟨Nat.ofDigitChars 10 digits 0, -(count + digits.length : Nat)⟩ := by
  have hZero : ∀ c ∈ ['0'], c.isDigit = true := List.forall_mem_singleton.mpr rfl
  have hAll : ∀ c ∈ List.replicate count '0' ++ digits, c.isDigit = true := fun c hMem =>
    (List.mem_append.mp hMem).elim (isDigit_of_mem_zeros c) (hDigits c)
  have hRead := readUnsigned?_fraction hZero (by decide) hAll endsDigits_nil
  have hValue : Nat.ofDigitChars 10 (['0'] ++ (List.replicate count '0' ++ digits)) 0 =
      Nat.ofDigitChars 10 digits 0 := by
    rw [Nat.ofDigitChars_append, Nat.ofDigitChars_append, Nat.ofDigitChars_replicate_zero]
    rfl
  rw [List.append_nil, hValue, List.length_append, List.length_replicate] at hRead
  exact hRead.trans (congrArg (fun e => some (Decimal.mk _ e)) (zero_sub _))

include hSome

theorem readUnsigned?_padded (count : Nat) :
    readUnsigned? (digits ++ List.replicate count '0') =
      some ⟨10 ^ count * Nat.ofDigitChars 10 digits 0, 0⟩ := by
  have hAll : ∀ c ∈ digits ++ List.replicate count '0', c.isDigit = true := fun c hMem =>
    (List.mem_append.mp hMem).elim (hDigits c) (isDigit_of_mem_zeros c)
  have hRead := readUnsigned?_whole hAll (List.append_ne_nil_of_left_ne_nil hSome _) endsDigits_nil
  rw [List.append_nil, Nat.ofDigitChars_append, Nat.ofDigitChars_replicate_zero] at hRead
  exact hRead

theorem readUnsigned?_split {count : Nat} (hCount : 0 < count) :
    readUnsigned? (digits.take count ++ '.' :: digits.drop count) =
      some ⟨Nat.ofDigitChars 10 digits 0, -(digits.length - count : Nat)⟩ := by
  have hTake : digits.take count ≠ [] := by
    rw [ne_eq, List.take_eq_nil_iff, not_or]
    exact ⟨hCount.ne', hSome⟩
  have hFirst : ∀ c ∈ digits.take count, c.isDigit = true := fun c hMem =>
    hDigits c (List.mem_of_mem_take hMem)
  have hLast : ∀ c ∈ digits.drop count, c.isDigit = true := fun c hMem =>
    hDigits c (List.mem_of_mem_drop hMem)
  have hRead := readUnsigned?_fraction hFirst hTake hLast endsDigits_nil
  rw [List.append_nil, List.take_append_drop, List.length_drop] at hRead
  rw [hRead, readExponent?, Option.map_some, zero_sub]

theorem readUnsigned?_scientific (point : Int) :
    readUnsigned? (digits.take 1 ++ (if digits.length = 1 then [] else '.' :: digits.drop 1) ++
        'e' :: (if 0 < point then '+' else '-') :: Nat.toDigits 10 (point - 1).natAbs) =
      some ⟨Nat.ofDigitChars 10 digits 0, point - digits.length⟩ := by
  have hEnd := endsDigits_exponent (if 0 < point then '+' else '-')
    (Nat.toDigits 10 (point - 1).natAbs)
  have hExponent := readExponent?_sign point
  have hTake : digits.take 1 ≠ [] := by
    rw [ne_eq, List.take_eq_nil_iff, not_or]
    exact ⟨one_ne_zero, hSome⟩
  have hFirst : ∀ c ∈ digits.take 1, c.isDigit = true := fun c hMem =>
    hDigits c (List.mem_of_mem_take hMem)
  by_cases hOne : digits.length = 1
  · have hAll : digits.take 1 = digits := List.take_of_length_le hOne.le
    rw [if_pos hOne, List.append_nil, readUnsigned?_whole hFirst hTake hEnd, hExponent,
      Option.map_some, hAll, hOne, Nat.cast_one]
  · have hLast : ∀ c ∈ digits.drop 1, c.isDigit = true := fun c hMem =>
      hDigits c (List.mem_of_mem_drop hMem)
    have hLength : 0 < digits.length := List.length_pos_of_ne_nil hSome
    have hPlaces : point - 1 - (digits.length - 1 : Nat) = point - digits.length := by omega
    rw [if_neg hOne, List.append_assoc, List.cons_append,
      readUnsigned?_fraction hFirst hTake hLast hEnd, hExponent, Option.map_some,
      List.take_append_drop, List.length_drop, hPlaces]

/-- A layout is read as the number that it is a layout of. -/
theorem readUnsigned?_layout (point : Int) :
    ∃ decimal, readUnsigned? (layout digits point) = some decimal ∧
      decimal.value = Decimal.value ⟨Nat.ofDigitChars 10 digits 0, point - digits.length⟩ := by
  unfold layout
  by_cases hWhole : digits.length ≤ point ∧ point ≤ 21
  · have hCount : point - digits.length = (point - digits.length).toNat := by omega
    rw [if_pos hWhole]
    refine ⟨_, readUnsigned?_padded hDigits hSome _, ?_⟩
    generalize (point - digits.length).toNat = count at hCount ⊢
    rw [hCount, Decimal.value, Decimal.value, zpow_natCast, zpow_zero]
    push_cast
    ring
  rw [if_neg hWhole]
  by_cases hPoint : 0 < point ∧ point ≤ 21
  · rw [if_pos hPoint]
    refine ⟨_, readUnsigned?_split hDigits hSome (by omega), ?_⟩
    congr 2
    omega
  rw [if_neg hPoint]
  by_cases hSmall : -6 < point ∧ point ≤ 0
  · rw [if_pos hSmall]
    refine ⟨_, readUnsigned?_small hDigits _, ?_⟩
    congr 2
    omega
  · rw [if_neg hSmall]
    exact ⟨_, readUnsigned?_scientific hDigits hSome point, rfl⟩

end Layouts

theorem readNumber?_of_unsigned {text : List Char} {decimal : Decimal}
    (hRead : readUnsigned? text = some decimal) : readNumber? text = some decimal.value := by
  have hMinus : ∀ more, readUnsigned? ('-' :: more) = none := fun more => by
    simp [readUnsigned?, List.span_eq_takeWhile_dropWhile]
  unfold readNumber?
  split
  · rw [hMinus] at hRead
    cases hRead
  · rw [hRead, Option.map_some]

/-- With a sign in front, a layout is read as the decimal or its negative. -/
theorem readNumber?_layout (negative : Bool) (decimal : Decimal) :
    readNumber? (signChars negative ++ layout decimal.digitChars decimal.point) =
      some (if negative then -decimal.value else decimal.value) := by
  have hDigits : ∀ c ∈ decimal.digitChars, c.isDigit = true := fun c hMem =>
    Nat.isDigit_of_mem_toDigits (by decide) (by decide) hMem
  obtain ⟨read, hRead, hValue⟩ :=
    readUnsigned?_layout hDigits Nat.toDigits_ne_nil decimal.point
  have hSame : read.value = decimal.value := by
    rw [hValue, Decimal.digitChars, Nat.ofDigitChars_ten_toDigits, Decimal.point]
    congr 2
    exact add_sub_cancel_left _ _
  cases negative with
  | false => exact hSame ▸ readNumber?_of_unsigned hRead
  | true =>
      change (readUnsigned? (layout decimal.digitChars decimal.point)).map _ = _
      rw [hRead, Option.map_some, hSame, if_pos rfl]

end NumberText

end PageGen
