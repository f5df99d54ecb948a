import PageGen.Proofs.Number.Reading
import PageGen.Value

/-! The texts of all doubles. -/
namespace PageGen

namespace Binary64

/-- The number of a double in the order of all. Both zeros have the same. -/
def ordinal (bits : UInt64) : Int :=
  if bits.toNat / signBit == 1 then -(magnitudeBits bits : Int) else magnitudeBits bits

/-- What is read from bits that stand for a finite double. -/
theorem ofBits_finite {bits : UInt64} {negative : Bool} {m : Nat} {q : Int}
    (hBits : ofBits bits = .finite negative m q) :
    magnitudeBits bits < infinityBits ∧ m = significand (magnitudeBits bits) ∧
      q = exponent (magnitudeBits bits) ∧ negative = (bits.toNat / signBit == 1) := by
  have hField : bits.toNat / leadingBit % 2048 = magnitudeBits bits / leadingBit := by
    unfold leadingBit magnitudeBits signBit
    omega
  have hFraction : bits.toNat % leadingBit = magnitudeBits bits % leadingBit := by
    unfold leadingBit magnitudeBits signBit
    omega
  have hRange : magnitudeBits bits < signBit := Nat.mod_lt _ (by decide)
  unfold ofBits at hBits
  simp only [hField, hFraction] at hBits
  unfold leadingBit signBit at *
  unfold significand exponent infinityBits leadingBit
  split_ifs at hBits with hInfinite hZero hSubnormal
  · obtain ⟨rfl, rfl, rfl⟩ := Binary64.finite.inj hBits
    rw [if_pos hSubnormal, if_pos hSubnormal]
    exact ⟨by omega, by omega, rfl, rfl⟩
  · obtain ⟨rfl, rfl, rfl⟩ := Binary64.finite.inj hBits
    rw [if_neg hSubnormal, if_neg hSubnormal]
    exact ⟨by omega, rfl, rfl, rfl⟩

theorem ofBits_infinite {bits : UInt64} {negative : Bool} (hBits : ofBits bits = .infinite negative) :
    magnitudeBits bits = infinityBits ∧ negative = (bits.toNat / signBit == 1) := by
  unfold ofBits at hBits
  simp only at hBits
  split_ifs at hBits with hInfinite hZero
  obtain rfl := Binary64.infinite.inj hBits
  refine ⟨?_, rfl⟩
  unfold magnitudeBits infinityBits
  unfold leadingBit signBit at *
  omega

/-- The bits are those of the magnitude and the sign. -/
theorem bits_ext {bits other : UInt64} (hMagnitude : magnitudeBits bits = magnitudeBits other)
    (hSign : (bits.toNat / signBit == 1) = (other.toNat / signBit == 1)) : bits = other := by
  have hBits := bits.toNat_lt
  have hOther := other.toNat_lt
  apply UInt64.toNat_inj.mp
  rw [beq_eq_beq] at hSign
  unfold magnitudeBits at hMagnitude
  unfold signBit at hMagnitude hSign
  omega

theorem bits_of_ordinal {bits other : UInt64} (hOrdinal : ordinal bits = ordinal other)
    (hNonzero : magnitudeBits bits ≠ 0) : bits = other := by
  unfold ordinal at hOrdinal
  by_cases hSign : (bits.toNat / signBit == 1) = (other.toNat / signBit == 1)
  · refine bits_ext ?_ hSign
    rw [hSign] at hOrdinal
    split_ifs at hOrdinal <;> omega
  · exfalso
    split_ifs at hOrdinal with hFirst hSecond hSecond
    · exact hSign (hFirst.trans hSecond.symm)
    · omega
    · omega
    · exact hSign ((Bool.not_eq_true _ ▸ hFirst).trans (Bool.not_eq_true _ ▸ hSecond).symm)

/-- The number that bits stand for, by its place in the order. -/
theorem value_ordinal {bits : UInt64} {negative : Bool} {m : Nat} {q : Int}
    (hBits : ofBits bits = .finite negative m q) :
    value (ordinal bits) = if negative then -((m : ℚ) * 2 ^ q) else (m : ℚ) * 2 ^ q := by
  obtain ⟨-, rfl, rfl, rfl⟩ := ofBits_finite hBits
  unfold ordinal
  split_ifs
  · rw [value_neg, value_natCast, magnitude]
  · rw [value_natCast, magnitude]

end Binary64

open Binary64
open NumberText hiding ofBits

/-- The texts that a double may have: words if it is not finite, one digit for both
zeros, and otherwise a sign if it is negative and its shortest decimal, in the form
for the position of the point. -/
inductive IsNumberString (bits : UInt64) : List Char → Prop where
  | nan (hBits : ofBits bits = .nan) : IsNumberString bits "NaN".toList
  | infinite {negative : Bool} (hBits : ofBits bits = .infinite negative) :
      IsNumberString bits (signChars negative ++ "Infinity".toList)
  | zero {negative : Bool} {q : Int} (hBits : ofBits bits = .finite negative 0 q) :
      IsNumberString bits ['0']
  | nonzero {negative : Bool} {m : Nat} {q : Int} {decimal : Decimal}
      (hBits : ofBits bits = .finite negative m q) (hNonzero : m ≠ 0)
      (hShortest : IsShortest decimal (magnitudeBits bits)) :
      IsNumberString bits (signChars negative ++ layout decimal.digitChars decimal.point)

theorem digits_pos_of_isShortest {decimal : Decimal} {bits : Nat} (hPositive : 0 < bits)
    (hShortest : IsShortest decimal bits) : 0 < decimal.digits :=
  RoundingInterval.digits_pos_of_holds (RoundingInterval.around_searchable hPositive)
    ((RoundingInterval.around_holds_iff hPositive (by simpa using hShortest.readsBack.finite) _).mpr
      hShortest.readsBack)

theorem magnitudeBits_pos {bits : UInt64} {negative : Bool} {m : Nat} {q : Int}
    (hBits : ofBits bits = .finite negative m q) (hNonzero : m ≠ 0) : 0 < magnitudeBits bits := by
  obtain ⟨-, rfl, -⟩ := ofBits_finite hBits
  rw [Nat.pos_iff_ne_zero]
  intro hZero
  rw [hZero] at hNonzero
  exact hNonzero rfl

theorem isNumberString_ofBits (bits : UInt64) : IsNumberString bits (NumberText.ofBits bits) := by
  unfold NumberText.ofBits
  cases hBits : Binary64.ofBits bits with
  | nan => exact .nan hBits
  | infinite negative => exact .infinite hBits
  | finite negative m q =>
      by_cases hZero : m = 0
      · subst hZero
        exact .zero hBits
      · have hPositive := magnitudeBits_pos hBits hZero
        obtain ⟨hFinite, rfl, rfl, -⟩ := ofBits_finite hBits
        have hShortest := shortest_isShortest hPositive hFinite tieUp
        simp only [if_neg hZero]
        rw [form_eq_layout (digits_pos_of_isShortest hPositive hShortest) hShortest]
        exact .nonzero hBits hZero hShortest

namespace IsNumberString

variable {bits other : UInt64} {text : List Char}

/-- Read as a number, a text of a finite double rounds to the double. -/
theorem reads (hString : IsNumberString bits text) {negative : Bool} {m : Nat} {q : Int}
    (hBits : ofBits bits = .finite negative m q) :
    ∃ r, readNumber? text = some r ∧ RoundsTo r (ordinal bits) := by
  cases hString with
  | nan hNan => exact absurd (hBits.symm.trans hNan) (by simp)
  | infinite hInfinite => exact absurd (hBits.symm.trans hInfinite) (by simp)
  | zero hZero =>
      have hRead : readUnsigned? ['0'] = some ⟨0, 0⟩ := rfl
      refine ⟨_, readNumber?_of_unsigned hRead, ?_⟩
      have hValue : value (ordinal bits) = value 0 := by
        rw [value_ordinal hZero, Nat.cast_zero, zero_mul, neg_zero, ite_self]
        exact magnitude_zero.symm
      have hOrdinal : ordinal bits = 0 := value_strictMono.injective hValue
      have hNumber : Decimal.value ⟨0, 0⟩ = value 0 := by
        rw [Decimal.value, Nat.cast_zero, zero_mul]
        exact magnitude_zero.symm
      rw [hOrdinal, hNumber]
      exact roundsTo_value (by decide)
  | nonzero hFinite hNonzero hShortest =>
      refine ⟨_, readNumber?_layout _ _, ?_⟩
      obtain ⟨-, -, -, rfl⟩ := ofBits_finite hFinite
      unfold ordinal
      split_ifs
      · exact hShortest.readsBack.neg
      · exact hShortest.readsBack

/-- A text of a double that is not finite cannot be read as a number. -/
theorem not_reads (hString : IsNumberString bits text)
    (hBits : ∀ negative m q, ofBits bits ≠ .finite negative m q) : readNumber? text = none := by
  cases hString with
  | nan hNan => rfl
  | @infinite negative hInfinite => cases negative <;> rfl
  | zero hZero => exact absurd hZero (hBits _ _ _)
  | nonzero hFinite => exact absurd hFinite (hBits _ _ _)

theorem text_of_nan (hString : IsNumberString bits text) (hBits : ofBits bits = .nan) :
    text = "NaN".toList := by
  cases hString with
  | nan hNan => rfl
  | infinite hInfinite => exact absurd (hBits.symm.trans hInfinite) (by simp)
  | zero hZero => exact absurd (hBits.symm.trans hZero) (by simp)
  | nonzero hFinite => exact absurd (hBits.symm.trans hFinite) (by simp)

theorem text_of_infinite (hString : IsNumberString bits text) {negative : Bool}
    (hBits : ofBits bits = .infinite negative) :
    text = signChars negative ++ "Infinity".toList := by
  cases hString with
  | nan hNan => exact absurd (hBits.symm.trans hNan) (by simp)
  | infinite hInfinite =>
      obtain rfl := Binary64.infinite.inj (hBits.symm.trans hInfinite)
      rfl
  | zero hZero => exact absurd (hBits.symm.trans hZero) (by simp)
  | nonzero hFinite => exact absurd (hBits.symm.trans hFinite) (by simp)

/-- No two doubles have a text in common, apart from those that are not numbers and
the two zeros. -/
theorem eq_of_same (hString : IsNumberString bits text) (hOther : IsNumberString other text) :
    bits = other ∨ (ofBits bits = .nan ∧ ofBits other = .nan) ∨
      (magnitudeBits bits = 0 ∧ magnitudeBits other = 0) := by
  cases hBits : ofBits bits with
  | nan =>
      have hText := hString.text_of_nan hBits
      cases hBits' : ofBits other with
      | nan => exact .inr (.inl ⟨rfl, rfl⟩)
      | infinite negative =>
          have hText' := hOther.text_of_infinite hBits'
          cases negative <;> exact absurd (hText.symm.trans hText') (by decide)
      | finite negative m q =>
          obtain ⟨r, hRead, -⟩ := hOther.reads hBits'
          rw [hText] at hRead
          cases hRead
  | infinite negative =>
      have hText := hString.text_of_infinite hBits
      cases hBits' : ofBits other with
      | nan =>
          have hText' := hOther.text_of_nan hBits'
          cases negative <;> exact absurd (hText.symm.trans hText') (by decide)
      | infinite negative' =>
          have hText' := hOther.text_of_infinite hBits'
          obtain ⟨hMagnitude, hSign⟩ := ofBits_infinite hBits
          obtain ⟨hMagnitude', hSign'⟩ := ofBits_infinite hBits'
          have hSame : negative = negative' := by
            revert hText
            rw [hText']
            cases negative <;> cases negative' <;> decide
          exact .inl (bits_ext (hMagnitude.trans hMagnitude'.symm)
            (hSign.symm.trans (hSame.trans hSign')))
      | finite negative' m q =>
          obtain ⟨r, hRead, -⟩ := hOther.reads hBits'
          rw [hText] at hRead
          cases negative <;> cases hRead
  | finite negative m q =>
      obtain ⟨r, hRead, hRounds⟩ := hString.reads hBits
      have hFinite : ∃ negative m q, ofBits other = .finite negative m q := by
        by_contra hNone
        rw [hOther.not_reads fun negative m q hFinite => hNone ⟨negative, m, q, hFinite⟩] at hRead
        cases hRead
      obtain ⟨negative', m', q', hBits'⟩ := hFinite
      obtain ⟨r', hRead', hRounds'⟩ := hOther.reads hBits'
      obtain rfl : r = r' := Option.some.inj (hRead.symm.trans hRead')
      have hOrdinal := hRounds.unique hRounds'
      by_cases hZero : magnitudeBits bits = 0
      · right
        right
        unfold ordinal at hOrdinal
        refine ⟨hZero, ?_⟩
        split_ifs at hOrdinal <;> omega
      · exact .inl (bits_of_ordinal hOrdinal hZero)

end IsNumberString

/-- The text of a number, for every double. It is the shortest decimal that rounds to
it, in the form for the position of the point, or one of the words and digits for what
has none. Where the double is finite, the text is read as a number that rounds to it.
So no two doubles have the same text, apart from the two zeros and from those that are
not numbers. -/
theorem number_text_is_shortest (x : Float) :
    IsNumberString x.toBits (Value.number x).text.toList ∧
      (∀ negative m q, ofFloat x = .finite negative m q →
        ∃ r, readNumber? (Value.number x).text.toList = some r ∧
          RoundsTo r (ordinal x.toBits) ∧
          value (ordinal x.toBits) = if negative then -((m : ℚ) * 2 ^ q) else (m : ℚ) * 2 ^ q) ∧
      ∀ y : Float, (Value.number x).text = (Value.number y).text →
        x = y ∨ (ofFloat x = .nan ∧ ofFloat y = .nan) ∨
          (magnitudeBits x.toBits = 0 ∧ magnitudeBits y.toBits = 0) := by
  have hText : ∀ z : Float, (Value.number z).text.toList = NumberText.ofBits z.toBits :=
    fun z => String.toList_ofList
  have hString : ∀ z : Float, IsNumberString z.toBits (Value.number z).text.toList :=
    fun z => hText z ▸ isNumberString_ofBits z.toBits
  refine ⟨hString x, fun negative m q hFinite => ?_, fun y hSame => ?_⟩
  · obtain ⟨r, hRead, hRounds⟩ := (hString x).reads hFinite
    exact ⟨r, hRead, hRounds, value_ordinal hFinite⟩
  · refine ((hString x).eq_of_same (hSame ▸ hString y)).imp_left fun hBits => ?_
    obtain ⟨⟨bits, hValid⟩⟩ := x
    obtain ⟨⟨bits', hValid'⟩⟩ := y
    obtain rfl : bits = bits' := hBits
    rfl

end PageGen
