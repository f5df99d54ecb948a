import PageGen.Proofs.Number.Rounding

/-! The numbers that round to a double, by their ends. Numerators over one common
denominator stand for rationals, and the interval that is made from the significand
and the exponent of a double has the points half-way to its neighbours as ends. -/
namespace PageGen

/-- The number that a decimal is. -/
def Decimal.value (decimal : Decimal) : ℚ := decimal.digits * 10 ^ decimal.exponent

theorem zpow_eq_toNat_div {base : ℚ} (hBase : 0 < base) (exponent : Int) :
    base ^ exponent = base ^ exponent.toNat / base ^ (-exponent).toNat := by
  have hNonzero : base ^ (-exponent).toNat ≠ 0 := (pow_pos hBase _).ne'
  rw [eq_div_iff hNonzero, ← zpow_natCast, ← zpow_natCast, ← zpow_add₀ hBase.ne']
  congr 1
  omega

theorem ten_zpow_pos (exponent : Int) : (0 : ℚ) < 10 ^ exponent := zpow_pos (by norm_num) exponent

theorem ten_zpow_pred (exponent : Int) : (10 : ℚ) ^ exponent = 10 ^ (exponent - 1) * 10 := by
  rw [← zpow_add_one₀ (by norm_num), sub_add_cancel]

namespace Decimal

theorem value_le_value {digits digits' : Nat} (hLe : digits ≤ digits') (exponent : Int) :
    value ⟨digits, exponent⟩ ≤ value ⟨digits', exponent⟩ := by
  have hGrid := ten_zpow_pos exponent
  have hCast : (digits : ℚ) ≤ digits' := by exact_mod_cast hLe
  exact mul_le_mul_of_nonneg_right hCast hGrid.le

theorem value_succ (digits : Nat) (exponent : Int) :
    value ⟨digits + 1, exponent⟩ = value ⟨digits, exponent⟩ + 10 ^ exponent := by
  simp only [value]
  push_cast
  ring

theorem value_one (power : Int) : value ⟨1, power⟩ = 10 ^ power := by simp [value]

end Decimal

namespace RoundingInterval

def lowest (interval : RoundingInterval) : ℚ := interval.low / interval.denominator

def center (interval : RoundingInterval) : ℚ := interval.value / interval.denominator

def highest (interval : RoundingInterval) : ℚ := interval.high / interval.denominator

/-- Whether a number lies in the interval. Only if it is closed, its ends do. -/
def Holds (interval : RoundingInterval) (r : ℚ) : Prop :=
  interval.lowest ≤ r ∧ r ≤ interval.highest ∧
    (r = interval.lowest ∨ r = interval.highest → interval.closed = true)

variable {interval : RoundingInterval}

/-- A numerator is compared with a decimal by products of natural numbers. -/
theorem cmp_value {denominator : Nat} (hDenominator : 0 < denominator) (numerator : Nat)
    (decimal : Decimal) :
    (numerator * Nat.pow 10 (-decimal.exponent).toNat ≤
        decimal.digits * Nat.pow 10 decimal.exponent.toNat * denominator ↔
      (numerator : ℚ) / denominator ≤ decimal.value) ∧
    (decimal.digits * Nat.pow 10 decimal.exponent.toNat * denominator ≤
        numerator * Nat.pow 10 (-decimal.exponent).toNat ↔
      decimal.value ≤ (numerator : ℚ) / denominator) := by
  have hDenominator' : (0 : ℚ) < denominator := by exact_mod_cast hDenominator
  have hScale : (0 : ℚ) < 10 ^ (-decimal.exponent).toNat := by positivity
  have hValue : decimal.value =
      decimal.digits * 10 ^ decimal.exponent.toNat / 10 ^ (-decimal.exponent).toNat := by
    rw [Decimal.value, zpow_eq_toNat_div (by norm_num), mul_div_assoc]
  rw [hValue, div_le_div_iff₀ hDenominator' hScale, div_le_div_iff₀ hScale hDenominator']
  constructor <;> exact_mod_cast Iff.rfl

theorem contains_iff (hDenominator : 0 < interval.denominator) (decimal : Decimal) :
    interval.contains decimal = true ↔ interval.Holds decimal.value := by
  obtain ⟨hLow, hLow'⟩ := cmp_value hDenominator interval.low decimal
  obtain ⟨hHigh', hHigh⟩ := cmp_value hDenominator interval.high decimal
  unfold contains Holds
  cases hClosed : interval.closed with
  | true =>
      simp only [if_true, Bool.and_eq_true, decide_eq_true_eq, hLow, hHigh, lowest, highest,
        implies_true, and_true]
  | false =>
      simp only [Bool.false_eq_true, if_false, Bool.and_eq_true, decide_eq_true_eq, ← not_le,
        hLow', hHigh', lowest, highest]
      constructor
      · rintro ⟨hAbove, hBelow⟩
        refine ⟨(not_le.mp hAbove).le, (not_le.mp hBelow).le, ?_⟩
        rintro (hEnd | hEnd)
        · exact absurd hEnd.le hAbove
        · exact absurd hEnd.ge hBelow
      · rintro ⟨hAbove, hBelow, hEnds⟩
        exact ⟨fun hLe => hEnds (.inl (le_antisymm hLe hAbove)),
          fun hLe => hEnds (.inr (le_antisymm hBelow hLe))⟩

/-- What lies between two numbers of the interval lies in it. -/
theorem Holds.between {r s t : ℚ} (hFirst : interval.Holds r) (hSecond : interval.Holds s)
    (hLow : r ≤ t) (hHigh : t ≤ s) : interval.Holds t := by
  refine ⟨hFirst.1.trans hLow, hHigh.trans hSecond.2.1, ?_⟩
  rintro (hEnd | hEnd)
  · exact hFirst.2.2 (.inl (by linarith [hFirst.1]))
  · exact hSecond.2.2 (.inr (by linarith [hSecond.2.1]))

end RoundingInterval

namespace Binary64

/-- The unit of the last bit is the distance to the next double, and that of the
double before is half of it where a new power of two begins. -/
theorem exponent_pred {bits : Nat} (hPositive : 0 < bits) :
    exponent (bits - 1) =
      if significand bits = leadingBit ∧ -1074 < exponent bits then exponent bits - 1
      else exponent bits := by
  unfold exponent significand leadingBit
  split_ifs <;> omega

theorem significand_even (bits : Nat) : significand bits % 2 = bits % 2 := by
  unfold significand leadingBit
  split_ifs <;> omega

theorem significand_pos {bits : Nat} (hPositive : 0 < bits) : 0 < significand bits := by
  unfold significand leadingBit
  split_ifs <;> omega

theorem significand_le (bits : Nat) : significand bits ≤ 2 ^ 53 := by
  unfold significand leadingBit
  split_ifs <;> omega

theorem halfway_natCast (bits : Nat) :
    halfway bits = magnitude bits + 2 ^ exponent bits / 2 := by
  have hNext : value ((bits : Int) + 1) = magnitude bits + 2 ^ exponent bits :=
    (value_natCast (bits + 1)).trans (magnitude_succ bits)
  rw [halfway, hNext, value_natCast]
  ring

theorem halfway_pred {bits : Nat} (hPositive : 0 < bits) :
    halfway (bits - 1) = magnitude bits - 2 ^ exponent (bits - 1) / 2 := by
  have hBits : bits - 1 + 1 = bits := by omega
  have hCast : (bits : Int) - 1 = (bits - 1 : Nat) := by omega
  have hSucc := magnitude_succ (bits - 1)
  rw [hBits] at hSucc
  rw [hCast, halfway_natCast, hSucc]
  ring

end Binary64

namespace RoundingInterval

open Binary64

/-- The interval around the double with these bits. -/
def around (bits : Nat) : RoundingInterval := ofBinary (significand bits) (exponent bits)

theorem around_denominator_pos (bits : Nat) : 0 < (around bits).denominator :=
  Nat.pow_pos two_pos

/-- Numerators are quarters of the unit of the last bit. -/
theorem quarters (numerator bits : Nat) :
    ((numerator * Nat.pow 2 (exponent bits - 2).toNat : Nat) : ℚ) / (around bits).denominator =
      numerator * 2 ^ exponent bits / 4 := by
  have hPower : (2 : ℚ) ^ exponent bits / 4 =
      2 ^ (exponent bits - 2).toNat / 2 ^ (2 - exponent bits).toNat := by
    rw [← neg_sub (exponent bits), ← zpow_eq_toNat_div two_pos, zpow_sub₀ two_ne_zero]
    norm_num
  rw [mul_div_assoc, hPower, ← mul_div_assoc]
  change ((numerator * 2 ^ (exponent bits - 2).toNat : Nat) : ℚ) /
    ((2 ^ (2 - exponent bits).toNat : Nat) : ℚ) = _
  push_cast
  rfl

theorem around_center (bits : Nat) : (around bits).center = magnitude bits := by
  refine (quarters (4 * significand bits) bits).trans ?_
  rw [magnitude]
  push_cast
  ring

theorem around_highest (bits : Nat) : (around bits).highest = halfway bits := by
  refine (quarters (4 * significand bits + 2) bits).trans ?_
  rw [halfway_natCast, magnitude]
  push_cast
  ring

theorem around_lowest {bits : Nat} (hPositive : 0 < bits) :
    (around bits).lowest = halfway (bits - 1) := by
  have hSignificand := significand_pos hPositive
  rw [halfway_pred hPositive, exponent_pred hPositive, magnitude]
  refine (quarters _ bits).trans ?_
  by_cases hNarrow : significand bits = leadingBit ∧ -1074 < exponent bits
  · have hPower : (2 : ℚ) ^ (exponent bits - 1) = 2 ^ exponent bits / 2 := by
      rw [zpow_sub_one₀ two_ne_zero, div_eq_mul_inv]
    rw [if_pos hNarrow, if_pos (by simp [hNarrow]), Nat.cast_sub (by omega), hPower]
    push_cast
    ring
  · rw [if_neg hNarrow, if_neg (by simpa using hNarrow), Nat.cast_sub (by omega)]
    push_cast
    ring

/-- The interval around a double holds the numbers that round to it. -/
theorem around_holds_iff {bits : Nat} (hPositive : 0 < bits) (hFinite : bits < infinityBits)
    (r : ℚ) : (around bits).Holds r ↔ RoundsTo r bits := by
  have hClosed : (around bits).closed = true ↔ (bits : Int) % 2 = 0 := by
    have hEven := significand_even bits
    change (significand bits % 2 == 0) = true ↔ _
    rw [beq_iff_eq]
    omega
  rw [roundsTo_iff (by simpa using hFinite), Holds, around_lowest hPositive, around_highest,
    hClosed]

/-- What the search for a decimal relies on: the interval is wide enough for the
finest grid, and not so wide that it holds more than one power of ten. -/
structure Searchable (interval : RoundingInterval) : Prop where
  denominator_pos : 0 < interval.denominator
  lowest_pos : 0 < interval.lowest
  lowest_lt : interval.lowest < interval.center
  lt_highest : interval.center < interval.highest
  highest_le : 2 * interval.highest ≤ 3 * interval.center
  wide : interval.center ≤ 2 ^ 54 * (interval.highest - interval.center)

theorem around_searchable {bits : Nat} (hPositive : 0 < bits) : (around bits).Searchable := by
  have hUnit : (0 : ℚ) < 2 ^ exponent bits := zpow_pos two_pos _
  have hUnit' : (0 : ℚ) < 2 ^ exponent (bits - 1) := zpow_pos two_pos _
  have hSignificand : (1 : ℚ) ≤ significand bits := by exact_mod_cast significand_pos hPositive
  have hSignificand' : (significand bits : ℚ) ≤ 2 ^ 53 := by exact_mod_cast significand_le bits
  have hLeast : 2 ^ exponent bits ≤ significand bits * (2 : ℚ) ^ exponent bits :=
    le_mul_of_one_le_left hUnit.le hSignificand
  have hMost : significand bits * (2 : ℚ) ^ exponent bits ≤ 2 ^ 53 * 2 ^ exponent bits :=
    mul_le_mul_of_nonneg_right hSignificand' hUnit.le
  refine ⟨around_denominator_pos bits, ?_, ?_, ?_, ?_, ?_⟩
  · have hFirst : halfway ((0 : Nat) : Int) ≤ halfway (bits - 1) :=
      halfway_strictMono.monotone (by omega)
    have hFirst' : (0 : ℚ) < 2 ^ exponent 0 := zpow_pos two_pos _
    rw [halfway_natCast, magnitude_zero] at hFirst
    rw [around_lowest hPositive]
    linarith
  · rw [around_lowest hPositive, around_center, halfway_pred hPositive]
    linarith
  · rw [around_highest, around_center, halfway_natCast]
    linarith
  · rw [around_highest, around_center, halfway_natCast, magnitude]
    linarith
  · rw [around_highest, around_center, halfway_natCast, magnitude]
    linarith

end RoundingInterval

end PageGen
