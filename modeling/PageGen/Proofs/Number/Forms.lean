import PageGen.Proofs.Number.Shortest

/-! The forms of numbers: with all digits in place if the point is not too far from
them, and with an exponent otherwise. Which one is taken depends on the bits of the
number, and comes to the position of the point in its shortest decimal. -/
namespace PageGen

namespace NumberText

open Binary64 hiding ofBits

/-- Digits in the form for the position of the point, which says how many of them
come before it. -/
def layout (digits : List Char) (point : Int) : List Char :=
  if digits.length ≤ point ∧ point ≤ 21 then
    digits ++ List.replicate (point - digits.length).toNat '0'
  else if 0 < point ∧ point ≤ 21 then
    digits.take point.toNat ++ '.' :: digits.drop point.toNat
  else if -6 < point ∧ point ≤ 0 then
    '0' :: '.' :: (List.replicate (-point).toNat '0' ++ digits)
  else
    digits.take 1 ++ (if digits.length = 1 then [] else '.' :: digits.drop 1) ++
      'e' :: (if 0 < point then '+' else '-') :: Nat.toDigits 10 (point - 1).natAbs

theorem layout_of_near {decimal : Decimal} (hLow : -6 < decimal.point)
    (hHigh : decimal.point ≤ 21) : layout decimal.digitChars decimal.point = decimal.positional := by
  have hExponent : decimal.exponent = decimal.point - decimal.digitChars.length := by
    rw [Decimal.point]
    omega
  unfold layout Decimal.positional
  simp only [hExponent]
  by_cases hWhole : decimal.digitChars.length ≤ decimal.point
  · have hPlaces : 0 ≤ decimal.point - decimal.digitChars.length := by omega
    rw [if_pos ⟨hWhole, hHigh⟩, if_pos hPlaces]
  · have hPlaces : ¬0 ≤ decimal.point - decimal.digitChars.length := by omega
    rw [if_neg (fun hBoth => hWhole hBoth.1), if_neg hPlaces]
    by_cases hPoint : 0 < decimal.point
    · rw [if_pos ⟨hPoint, hHigh⟩, if_pos hPoint]
    · rw [if_neg (fun hBoth => hPoint hBoth.1), if_pos ⟨hLow, not_lt.mp hPoint⟩, if_neg hPoint]

theorem layout_of_far {decimal : Decimal} (hFar : ¬(-6 < decimal.point ∧ decimal.point ≤ 21)) :
    layout decimal.digitChars decimal.point = decimal.scientific := by
  have hSign : (if 0 < decimal.point then '+' else '-') =
      if decimal.point - 1 < 0 then '-' else '+' := by
    split_ifs <;> first | rfl | omega
  unfold layout Decimal.scientific
  rw [if_neg (by omega), if_neg (by omega), if_neg (by omega), hSign]
  cases hDigits : decimal.digitChars with
  | nil => exact absurd hDigits Nat.toDigits_ne_nil
  | cons digit more =>
      cases more with
      | nil => rfl
      | cons second rest => simp

/-- The double at which a power of ten is reached: the power rounds to it, and what has
one digit and is less than the power is less than the double before. -/
structure StartsAt (power : Int) (bits : Nat) : Prop where
  rounds : RoundsTo (10 ^ power) bits
  gap : 9 * (10 : ℚ) ^ (power - 1) < magnitude (bits - 1)

/-- The bits of a double tell where the point of its shortest decimal is. -/
theorem lt_point_iff {decimal : Decimal} {bits boundary : Nat} {power : Int}
    (hShortest : IsShortest decimal bits) (hDigits : 0 < decimal.digits)
    (hBoundary : StartsAt power boundary) : power < decimal.point ↔ boundary ≤ bits := by
  rw [← not_le, ← Decimal.value_lt_iff hDigits, not_lt]
  constructor
  · intro hLe
    exact_mod_cast hBoundary.rounds.mono hShortest.readsBack hLe
  · intro hLe
    by_contra hLess
    have hBits : bits = boundary := by
      have hOrder := hShortest.readsBack.mono hBoundary.rounds (not_le.mp hLess).le
      omega
    subst hBits
    -- The power itself is read back, so that there is only one digit.
    have hPower : (Decimal.digitChars ⟨1, power⟩).length = 1 := by
      rw [Decimal.digitChars, Nat.toDigits_of_lt_base (by norm_num), List.length_singleton]
    have hLength : decimal.digitChars.length ≤ 1 :=
      hPower ▸ hShortest.fewest ⟨1, power⟩ (by rw [Decimal.value_one]; exact hBoundary.rounds)
    have hOne : decimal.digits < 10 ^ 1 :=
      (Nat.length_toDigits_le_iff (by decide) one_pos).mp hLength
    have hExponent : decimal.exponent ≤ power - 1 := by
      have hPoint := (Decimal.value_lt_iff hDigits power).mp (not_le.mp hLess)
      have hSome : 0 < decimal.digitChars.length := Nat.length_toDigits_pos
      unfold Decimal.point at hPoint
      omega
    have hValue : decimal.value ≤ 9 * 10 ^ (power - 1) :=
      mul_le_mul (by exact_mod_cast Nat.le_of_lt_succ hOne)
        (zpow_le_zpow_right₀ (by norm_num) hExponent) (ten_zpow_pos _).le (by norm_num)
    have hFinite := hShortest.readsBack.finite
    have hBefore : RoundsTo (magnitude (bits - 1)) (bits - 1 : Nat) :=
      roundsTo_value (i := (bits - 1 : Nat)) (by omega)
    have hOrder := hShortest.readsBack.mono hBefore (hValue.trans hBoundary.gap.le)
    obtain rfl : bits = 0 := by omega
    have hGap := hBoundary.gap
    have hPositive := ten_zpow_pos (power - 1)
    rw [magnitude_zero] at hGap
    linarith

/-- A boundary away from the powers of two, by its significand. -/
theorem startsAt_of_significand {power : Int} {bits m : Nat} {q : Int} (hPositive : 0 < bits)
    (hFinite : bits < infinityBits)
    (hBits : significand bits = m + 1 ∧ exponent bits = q)
    (hBefore : significand (bits - 1) = m ∧ exponent (bits - 1) = q)
    (hLow : (m + 1 / 2 : ℚ) * 2 ^ q < 10 ^ power) (hHigh : 10 ^ power < (m + 3 / 2 : ℚ) * 2 ^ q)
    (hGap : 9 * (10 : ℚ) ^ (power - 1) < m * 2 ^ q) : StartsAt power bits := by
  constructor
  · rw [roundsTo_iff (by simpa using hFinite), halfway_pred hPositive, halfway_natCast, magnitude,
      hBits.1, hBits.2, hBefore.2]
    push_cast
    refine ⟨by linarith, by linarith, ?_⟩
    rintro (hTie | hTie) <;> linarith
  · rw [magnitude, hBefore.1, hBefore.2]
    exact hGap

theorem startsAt_lowerBits : StartsAt (-6) lowerBits := by
  refine startsAt_of_significand (m := 4722366482869644) (q := -72) (by decide) (by decide)
    (by decide) (by decide) ?_ ?_ ?_ <;> norm_num

theorem startsAt_upperBits : StartsAt 21 upperBits := by
  refine startsAt_of_significand (m := 7629394531249999) (q := 17) (by decide) (by decide)
    (by decide) (by decide) ?_ ?_ ?_ <;> norm_num

/-- The form that is taken is the one for the position of the point. -/
theorem form_eq_layout {bits : UInt64} {decimal : Decimal} (hDigits : 0 < decimal.digits)
    (hShortest : IsShortest decimal (magnitudeBits bits)) :
    (if usesExponent bits then decimal.scientific else decimal.positional) =
      layout decimal.digitChars decimal.point := by
  have hLower := lt_point_iff hShortest hDigits startsAt_lowerBits
  have hUpper := lt_point_iff hShortest hDigits startsAt_upperBits
  have hUses : usesExponent bits = true ↔ ¬(-6 < decimal.point ∧ decimal.point ≤ 21) := by
    rw [usesExponent, Bool.or_eq_true, decide_eq_true_eq, decide_eq_true_eq, ← hUpper]
    omega
  by_cases hNear : -6 < decimal.point ∧ decimal.point ≤ 21
  · rw [if_neg (fun hTrue => hUses.mp hTrue hNear), layout_of_near hNear.1 hNear.2]
  · rw [if_pos (hUses.mpr hNear), layout_of_far hNear]

/-- The last double that is written with an exponent, and the next one. -/
example : ofBits 0x3EB0C6F7A0B5ED8C = "9.999999999999997e-7".toList ∧
    ofBits 0x3EB0C6F7A0B5ED8D = "0.000001".toList := by decide +kernel

end NumberText

end PageGen
