import PageGen.Proofs.Number.Search

/-! The decimal that a number is written with. It rounds to the number, none with
fewer digits does, and none with as many digits is nearer. -/
namespace PageGen

theorem length_toDigits_bounds {n : Nat} (hPositive : 0 < n) :
    10 ^ ((Nat.toDigits 10 n).length - 1) ≤ n ∧ n < 10 ^ (Nat.toDigits 10 n).length := by
  have hLength : 0 < (Nat.toDigits 10 n).length := Nat.length_toDigits_pos
  refine ⟨?_, (Nat.length_toDigits_le_iff (by decide) hLength).mp le_rfl⟩
  by_contra hLess
  rcases Nat.eq_zero_or_pos ((Nat.toDigits 10 n).length - 1) with hOne | hMore
  · rw [hOne] at hLess
    omega
  · have hShort := (Nat.length_toDigits_le_iff (by decide) hMore).mpr (not_le.mp hLess)
    omega

namespace Decimal

/-- The position of the point tells between which powers of ten the number is. -/
theorem point_bounds {decimal : Decimal} (hPositive : 0 < decimal.digits) :
    (10 : ℚ) ^ (decimal.point - 1) ≤ decimal.value ∧ decimal.value < 10 ^ decimal.point := by
  obtain ⟨hLow, hHigh⟩ := length_toDigits_bounds hPositive
  have hLength : 0 < decimal.digitChars.length := Nat.length_toDigits_pos
  have hGrid := ten_zpow_pos decimal.exponent
  have hPoint : decimal.point - 1 = (decimal.digitChars.length - 1 : Nat) + decimal.exponent := by
    rw [point]
    omega
  constructor
  · rw [hPoint, zpow_add₀ (by norm_num), zpow_natCast]
    exact mul_le_mul_of_nonneg_right (by exact_mod_cast hLow) hGrid.le
  · rw [point, zpow_add₀ (by norm_num), zpow_natCast]
    exact mul_lt_mul_of_pos_right (by exact_mod_cast hHigh) hGrid

theorem value_lt_iff {decimal : Decimal} (hPositive : 0 < decimal.digits) (power : Int) :
    decimal.value < 10 ^ power ↔ decimal.point ≤ power := by
  obtain ⟨hLow, hHigh⟩ := point_bounds hPositive
  constructor
  · intro hLt
    have hPower : (10 : ℚ) ^ (decimal.point - 1) < 10 ^ power := hLow.trans_lt hLt
    have hExponent := (zpow_lt_zpow_iff_right₀ (by norm_num)).mp hPower
    omega
  · intro hLe
    exact hHigh.trans_le (zpow_le_zpow_right₀ (by norm_num) hLe)

end Decimal

namespace RoundingInterval

variable {interval : RoundingInterval}

theorem ratio_bounds {a b : Nat} (hPositive : 0 < b) (hLe : b ≤ a) :
    (10 : ℚ) ^ ((Nat.toDigits 10 (a / b)).length - 1 : Int) ≤ a / b ∧
      (a : ℚ) / b < 10 ^ ((Nat.toDigits 10 (a / b)).length : Int) := by
  obtain ⟨hLow, hHigh⟩ := length_toDigits_bounds (Nat.div_pos hLe hPositive)
  have hCast : (0 : ℚ) < b := by exact_mod_cast hPositive
  have hLength : 0 < (Nat.toDigits 10 (a / b)).length := Nat.length_toDigits_pos
  have hPred : ((Nat.toDigits 10 (a / b)).length - 1 : Int) =
      ((Nat.toDigits 10 (a / b)).length - 1 : Nat) := by omega
  rw [hPred, zpow_natCast, zpow_natCast, le_div_iff₀ hCast, div_lt_iff₀ hCast]
  constructor
  · exact_mod_cast (Nat.le_div_iff_mul_le hPositive).mp hLow
  · exact_mod_cast (Nat.div_lt_iff_lt_mul hPositive).mp hHigh

/-- The first grid is the finest of those whose step is not below the middle. -/
theorem topExponent_bounds (hSearchable : interval.Searchable) :
    (10 : ℚ) ^ (interval.topExponent - 1) ≤ interval.center ∧
      interval.center ≤ 10 ^ interval.topExponent := by
  unfold topExponent
  split_ifs with hLe
  · obtain ⟨hLow, hHigh⟩ := ratio_bounds hSearchable.denominator_pos hLe
    exact ⟨hLow, hHigh.le⟩
  · have hCenter : 0 < interval.center := hSearchable.lowest_pos.trans hSearchable.lowest_lt
    have hValue : 0 < interval.value := by
      by_contra hZero
      rw [center, Nat.eq_zero_of_not_pos hZero, Nat.cast_zero, zero_div] at hCenter
      exact lt_irrefl _ hCenter
    obtain ⟨hLow, hHigh⟩ := ratio_bounds hValue (not_le.mp hLe).le
    generalize ((Nat.toDigits 10 (interval.denominator / interval.value)).length : Int) = length
      at hLow hHigh ⊢
    have hInverse : interval.center = ((interval.denominator : ℚ) / interval.value)⁻¹ := by
      rw [center, inv_div]
    have hBelow : 1 - length - 1 = -length := by omega
    have hAbove : 1 - length = -(length - 1) := by omega
    rw [hBelow, hAbove, zpow_neg, zpow_neg, hInverse]
    exact ⟨inv_anti₀ (hLow.trans_lt' (ten_zpow_pos _)) hHigh.le, inv_anti₀ (ten_zpow_pos _) hLow⟩

/-- Above the first grid there is nothing in the interval. -/
theorem misses_of_topExponent_lt (hSearchable : interval.Searchable) {exponent : Int}
    (hAbove : interval.topExponent < exponent) : interval.Misses exponent := by
  rintro digits ⟨hLow, hHigh, -⟩
  have hPositive := hSearchable.lowest_pos
  have hWidth := hSearchable.highest_le
  have hTop := (topExponent_bounds hSearchable).2
  cases digits with
  | zero =>
      simp only [Decimal.value, Nat.cast_zero, zero_mul] at hLow
      linarith
  | succ digits =>
      have hFirst : (10 : ℚ) ^ (interval.topExponent + 1) ≤ 10 ^ exponent :=
        zpow_le_zpow_right₀ (by norm_num) hAbove
      have hValue := Decimal.value_le_value (Nat.le_add_left 1 digits) exponent
      have hCenter := hSearchable.lowest_lt
      rw [Decimal.value_one] at hValue
      rw [zpow_add_one₀ (by norm_num)] at hFirst
      linarith

/-- The interval is wide enough for seventeen grids below the first one. -/
theorem not_misses_finest (hSearchable : interval.Searchable) :
    ¬interval.Misses (interval.topExponent - 18) := by
  intro hMisses
  obtain ⟨below, rest, step, hRest, hCenter, -⟩ :=
    onGrid?_eq hSearchable.denominator_pos (fun _ => true) (interval.topExponent - 18)
  obtain ⟨hBelow, hAbove, -⟩ := nearer_neighbour hRest hCenter
  have hNext := Decimal.value_succ below (interval.topExponent - 18)
  have hTop := (topExponent_bounds hSearchable).1
  have hScale : (10 : ℚ) ^ (interval.topExponent - 1) =
      10 ^ (interval.topExponent - 18) * 10 ^ (17 : Nat) := by
    rw [← zpow_natCast, ← zpow_add₀ (by norm_num)]
    congr 1
    omega
  have hGrid := ten_zpow_pos (interval.topExponent - 18)
  have hWide := hSearchable.wide
  have hLowest := hSearchable.lowest_lt
  have hInside : Decimal.value ⟨below + 1, interval.topExponent - 18⟩ < interval.highest := by
    rw [hScale] at hTop
    linarith
  refine hMisses (below + 1) ⟨hLowest.le.trans hAbove, hInside.le, ?_⟩
  rintro (hEnd | hEnd) <;> linarith

section Coarsest

variable {decimal other : Decimal}

theorem digits_pos_of_holds (hSearchable : interval.Searchable)
    (hHolds : interval.Holds decimal.value) : 0 < decimal.digits := by
  have hPositive := hSearchable.lowest_pos.trans_le hHolds.1
  rw [Nat.pos_iff_ne_zero]
  intro hZero
  rw [Decimal.value, hZero, Nat.cast_zero, zero_mul] at hPositive
  exact lt_irrefl _ hPositive

theorem IsCoarsest.exponent_le (hCoarsest : interval.IsCoarsest decimal)
    (hOther : interval.Holds other.value) : other.exponent ≤ decimal.exponent := by
  by_contra hLess
  exact hCoarsest.coarsest other.exponent (by omega) other.digits hOther

/-- If the point of another decimal is further to the left, then there is a power of
ten between the two. It is on a coarser grid, unless there is only one digit. -/
theorem IsCoarsest.power_between (hSearchable : interval.Searchable)
    (hCoarsest : interval.IsCoarsest decimal) (hOther : interval.Holds other.value)
    (hPoint : other.point < decimal.point) :
    decimal.point - 1 = decimal.exponent ∧ interval.Holds (10 ^ decimal.exponent) := by
  have hLow := (Decimal.point_bounds (digits_pos_of_holds hSearchable hCoarsest.holds)).1
  have hHigh := (Decimal.point_bounds (digits_pos_of_holds hSearchable hOther)).2
  have hOrder : (10 : ℚ) ^ other.point ≤ 10 ^ (decimal.point - 1) :=
    zpow_le_zpow_right₀ (by norm_num) (by omega)
  have hPower : interval.Holds (10 ^ (decimal.point - 1)) :=
    hOther.between hCoarsest.holds (hHigh.le.trans hOrder) hLow
  have hGrid : decimal.point - 1 ≤ decimal.exponent := by
    rw [← Decimal.value_one] at hPower
    exact hCoarsest.exponent_le hPower
  have hLength : 0 < decimal.digitChars.length := Nat.length_toDigits_pos
  have hSame : decimal.point - 1 = decimal.exponent := by
    unfold Decimal.point at hGrid ⊢
    omega
  exact ⟨hSame, hSame ▸ hPower⟩

/-- The coarsest decimal has the fewest digits. -/
theorem IsCoarsest.length_le (hSearchable : interval.Searchable)
    (hCoarsest : interval.IsCoarsest decimal) (hOther : interval.Holds other.value) :
    decimal.digitChars.length ≤ other.digitChars.length := by
  by_contra hLess
  have hExponent := hCoarsest.exponent_le hOther
  have hLength : 0 < other.digitChars.length := Nat.length_toDigits_pos
  have hPoint : other.point < decimal.point := by
    unfold Decimal.point
    omega
  have hOne := (hCoarsest.power_between hSearchable hOther hPoint).1
  unfold Decimal.point at hOne
  omega

end Coarsest

end RoundingInterval

open Binary64 RoundingInterval

variable {bits : Nat}

/-- The search for the shortest decimal succeeds, and what it finds is on the
coarsest grid. -/
theorem shortest_isCoarsest (hPositive : 0 < bits) (tieUp : Nat → Bool) :
    (around bits).IsCoarsest (Decimal.shortest tieUp (significand bits) (exponent bits)) := by
  have hSearchable := around_searchable hPositive
  have hFound : ∃ decimal,
      (around bits).search tieUp 19 (around bits).topExponent = some decimal ∧
        (around bits).IsCoarsest decimal :=
    search_isCoarsest hSearchable tieUp (fun above => misses_of_topExponent_lt hSearchable)
      (by omega) (by omega) (not_misses_finest hSearchable)
  obtain ⟨decimal, hSearch, hCoarsest⟩ := hFound
  have hShortest : Decimal.shortest tieUp (significand bits) (exponent bits) = decimal := by
    unfold Decimal.shortest
    unfold around at hSearch
    simp only [hSearch]
  exact hShortest ▸ hCoarsest

theorem inv_bounds {a b : Nat} (hLow : 202 * b < 100 * a) (hHigh : 100 * a < 203 * b) :
    (202 : ℚ) / 100 * (a : ℚ)⁻¹ < (b : ℚ)⁻¹ ∧ (b : ℚ)⁻¹ < 203 / 100 * (a : ℚ)⁻¹ := by
  have hA : (0 : ℚ) < a := by exact_mod_cast (by omega : 0 < a)
  have hB : (0 : ℚ) < b := by exact_mod_cast (by omega : 0 < b)
  have hLow' : (202 * b : ℚ) < 100 * a := by exact_mod_cast hLow
  have hHigh' : (100 * a : ℚ) < 203 * b := by exact_mod_cast hHigh
  constructor
  · rw [← div_eq_mul_inv, div_lt_iff₀ hA, inv_mul_eq_div, lt_div_iff₀ hB]
    linarith
  · rw [← div_eq_mul_inv, lt_div_iff₀ hA, inv_mul_eq_div, div_lt_iff₀ hB]
    linarith

/-- The power of ten that is a little more than twice the smallest double. -/
theorem tiny_power : (202 : ℚ) / 100 * 2 ^ (-1074 : Int) < 10 ^ (-323 : Int) ∧
    (10 : ℚ) ^ (-323 : Int) < 203 / 100 * 2 ^ (-1074 : Int) := by
  have hLow : 202 * 10 ^ 323 < 100 * 2 ^ 1074 := by decide +kernel
  have hHigh : 100 * 2 ^ 1074 < 203 * 10 ^ 323 := by decide +kernel
  have hPowers := inv_bounds hLow hHigh
  rw [Nat.cast_pow, Nat.cast_pow] at hPowers
  rw [zpow_neg, zpow_neg, zpow_ofNat, zpow_ofNat]
  exact hPowers

/-- Where a power of ten rounds to a smaller double, and so does something with one
digit below that power, the power is the nearer of the two. There is just one such
double, the second one, of which the interval reaches from `7.4e-324` to `1.3e-323`. -/
theorem power_nearer (hPositive : 0 < bits) {power : Int} {r : ℚ}
    (hPower : (around bits).Holds (10 ^ power)) (hAbove : magnitude bits < 10 ^ power)
    (hHolds : (around bits).Holds r) (hBelow : r ≤ 9 * 10 ^ (power - 1)) :
    10 ^ power - magnitude bits ≤ magnitude bits - r := by
  have hHigh := hPower.2.1
  have hLow := hHolds.1
  rw [around_highest, halfway_natCast] at hHigh
  rw [around_lowest hPositive, halfway_pred hPositive] at hLow
  have hUnit : (0 : ℚ) < 2 ^ exponent bits := zpow_pos two_pos _
  have hUnit' : (2 : ℚ) ^ exponent (bits - 1) ≤ 2 ^ exponent bits := by
    refine zpow_le_zpow_right₀ (by norm_num) ?_
    rw [exponent_pred hPositive]
    split_ifs <;> omega
  have hStep := ten_zpow_pred power
  -- A tenth of the power fits into the interval, which is one unit wide.
  have hFew : significand bits * (2 : ℚ) ^ exponent bits < 10 * 2 ^ exponent bits := by
    rw [← magnitude]
    linarith
  have hSmall : significand bits < 10 := by
    exact_mod_cast lt_of_mul_lt_mul_right hFew hUnit.le
  obtain ⟨hSignificand, hExponent⟩ : significand bits = bits ∧ exponent bits = -1074 := by
    unfold significand exponent leadingBit at *
    split_ifs at * <;> omega
  obtain ⟨hTiny, hTiny'⟩ := tiny_power
  rw [hExponent] at hUnit hHigh
  rw [magnitude, hSignificand, hExponent] at hHigh hAbove ⊢
  generalize (2 : ℚ) ^ (-1074 : Int) = unit at *
  rcases lt_trichotomy power (-323) with hLess | rfl | hMore
  · have hOrder : (10 : ℚ) ^ (power + 1) ≤ 10 ^ (-323 : Int) :=
      zpow_le_zpow_right₀ (by norm_num) (by omega)
    have hOne : unit ≤ bits * unit :=
      le_mul_of_one_le_left hUnit.le (by exact_mod_cast hPositive)
    rw [zpow_add_one₀ (by norm_num)] at hOrder
    linarith
  · have hTwo : 2 ≤ bits := by
      by_contra hLess
      obtain rfl : bits = 1 := by omega
      rw [Nat.cast_one, one_mul] at hHigh
      linarith
    have hTwo' : 2 * unit ≤ bits * unit :=
      mul_le_mul_of_nonneg_right (by exact_mod_cast hTwo) hUnit.le
    linarith
  · have hOrder : (10 : ℚ) ^ (-323 + 1 : Int) ≤ 10 ^ power :=
      zpow_le_zpow_right₀ (by norm_num) (by omega)
    have hMost : bits * unit ≤ 9 * unit :=
      mul_le_mul_of_nonneg_right (by exact_mod_cast (by omega : bits ≤ 9)) hUnit.le
    rw [zpow_add_one₀ (by norm_num)] at hOrder
    linarith

/-- A decimal that a double is to be written with: it rounds to the double, none with
fewer digits does, and none with as many digits is nearer. -/
structure IsShortest (decimal : Decimal) (bits : Nat) : Prop where
  readsBack : RoundsTo decimal.value bits
  fewest : ∀ other : Decimal, RoundsTo other.value bits →
    decimal.digitChars.length ≤ other.digitChars.length
  nearest : ∀ other : Decimal, RoundsTo other.value bits →
    other.digitChars.length = decimal.digitChars.length →
      |decimal.value - magnitude bits| ≤ |other.value - magnitude bits|

/-- What is on the coarsest grid and the nearest there is the nearest of all that have
as many digits. -/
theorem nearest_of_isCoarsest (hPositive : 0 < bits) {decimal other : Decimal}
    (hCoarsest : (around bits).IsCoarsest decimal) (hOther : (around bits).Holds other.value)
    (hLength : other.digitChars.length = decimal.digitChars.length) :
    |decimal.value - magnitude bits| ≤ |other.value - magnitude bits| := by
  have hSearchable := around_searchable hPositive
  have hNearest := hCoarsest.nearest
  rw [around_center] at hNearest
  rcases (hCoarsest.exponent_le hOther).eq_or_lt with hSame | hFiner
  · obtain ⟨digits, exponent⟩ := other
    obtain rfl : exponent = decimal.exponent := hSame
    exact hNearest digits hOther
  -- On a finer grid there is room only below a power of ten, which both surround.
  · have hPoint : other.point < decimal.point := by
      unfold Decimal.point
      omega
    obtain ⟨hOne, hPower⟩ := hCoarsest.power_between hSearchable hOther hPoint
    have hAtPower := hNearest 1 (by rwa [Decimal.value_one])
    rw [Decimal.value_one] at hAtPower
    have hDigits : other.digits ≤ 9 := by
      have hBound := (length_toDigits_bounds (digits_pos_of_holds hSearchable hOther)).2
      change other.digits < 10 ^ other.digitChars.length at hBound
      have hOneDigit : other.digitChars.length = 1 := by
        unfold Decimal.point at hOne
        omega
      rw [hOneDigit] at hBound
      omega
    have hBelow : other.value ≤ 9 * 10 ^ (decimal.exponent - 1) :=
      mul_le_mul (by exact_mod_cast hDigits) (zpow_le_zpow_right₀ (by norm_num) (by omega))
        (ten_zpow_pos _).le (by norm_num)
    have hStep := ten_zpow_pred decimal.exponent
    have hGrid := ten_zpow_pos (decimal.exponent - 1)
    have hDistance := neg_le_abs (other.value - magnitude bits)
    refine hAtPower.trans ?_
    rcases le_or_gt (10 ^ decimal.exponent) (magnitude bits) with hAtMost | hAbove
    · rw [abs_of_nonpos (by linarith)]
      linarith
    · have hNearer := power_nearer hPositive hPower hAbove hOther hBelow
      rw [abs_of_pos (by linarith)]
      linarith

/-- The decimal that is found is the one to write. -/
theorem shortest_isShortest (hPositive : 0 < bits) (hFinite : bits < infinityBits)
    (tieUp : Nat → Bool) :
    IsShortest (Decimal.shortest tieUp (significand bits) (exponent bits)) bits := by
  have hCoarsest := shortest_isCoarsest hPositive tieUp
  have hHolds := fun r => around_holds_iff hPositive hFinite r
  refine ⟨(hHolds _).mp hCoarsest.holds, fun other hOther => ?_, fun other hOther hLength => ?_⟩
  · exact hCoarsest.length_le (around_searchable hPositive) ((hHolds _).mpr hOther)
  · exact nearest_of_isCoarsest hPositive hCoarsest ((hHolds _).mpr hOther) hLength

end PageGen
