import PageGen.Proofs.Number.Interval

/-! The search for a decimal in an interval. On one grid it looks at the two
neighbours of the number in the middle, which is enough, and it goes from coarse
grids to fine ones, so that nothing is left on a coarser grid than that of the
decimal found. -/
namespace PageGen

namespace RoundingInterval

variable {interval : RoundingInterval} {tieUp : Nat → Bool} {exponent : Int} {decimal : Decimal}

theorem Searchable.holds_center (hSearchable : interval.Searchable) :
    interval.Holds interval.center := by
  refine ⟨hSearchable.lowest_lt.le, hSearchable.lt_highest.le, ?_⟩
  rintro (hEnd | hEnd)
  · exact absurd hEnd hSearchable.lowest_lt.ne'
  · exact absurd hEnd hSearchable.lt_highest.ne

/-- A decimal of the interval that is at least as near to its middle as all others
on the same grid. -/
structure NearestOnGrid (interval : RoundingInterval) (decimal : Decimal) : Prop where
  holds : interval.Holds decimal.value
  nearest : ∀ digits : Nat, interval.Holds (Decimal.value ⟨digits, decimal.exponent⟩) →
    |decimal.value - interval.center| ≤
      |Decimal.value ⟨digits, decimal.exponent⟩ - interval.center|

/-- Nothing on the grid is in the interval. -/
def Misses (interval : RoundingInterval) (exponent : Int) : Prop :=
  ∀ digits : Nat, ¬interval.Holds (Decimal.value ⟨digits, exponent⟩)

/-- One look at a grid. The middle is a part of a step above the lower of its two
neighbours on the grid. -/
theorem onGrid?_eq (hDenominator : 0 < interval.denominator) (tieUp : Nat → Bool)
    (exponent : Int) :
    ∃ below rest step : Nat, rest < step ∧
      interval.center = Decimal.value ⟨below, exponent⟩ + rest / step * 10 ^ exponent ∧
      interval.onGrid? tieUp exponent =
        match interval.contains ⟨below, exponent⟩, interval.contains ⟨below + 1, exponent⟩ with
        | true, true =>
          if 2 * rest < step then some ⟨below, exponent⟩
          else if step < 2 * rest then some ⟨below + 1, exponent⟩
          else if tieUp below then some ⟨below + 1, exponent⟩ else some ⟨below, exponent⟩
        | true, false => some ⟨below, exponent⟩
        | false, true => some ⟨below + 1, exponent⟩
        | false, false => none := by
  have hStep : 0 < Nat.pow 10 exponent.toNat * interval.denominator :=
    Nat.mul_pos (Nat.pow_pos (by decide)) hDenominator
  refine ⟨_, _, _, Nat.mod_lt _ hStep, ?_, rfl⟩
  have hDivision := Nat.div_add_mod (interval.value * Nat.pow 10 (-exponent).toNat)
    (Nat.pow 10 exponent.toNat * interval.denominator)
  generalize interval.value * Nat.pow 10 (-exponent).toNat /
    (Nat.pow 10 exponent.toNat * interval.denominator) = below at hDivision ⊢
  generalize interval.value * Nat.pow 10 (-exponent).toNat %
    (Nat.pow 10 exponent.toNat * interval.denominator) = rest at hDivision ⊢
  have hCast : (10 : ℚ) ^ exponent.toNat * interval.denominator * below + rest =
      interval.value * 10 ^ (-exponent).toNat := by exact_mod_cast hDivision
  have hDenominator' : (interval.denominator : ℚ) ≠ 0 := by exact_mod_cast hDenominator.ne'
  have hUp : (10 : ℚ) ^ exponent.toNat ≠ 0 := by positivity
  have hDown : (10 : ℚ) ^ (-exponent).toNat ≠ 0 := by positivity
  rw [center, Decimal.value, zpow_eq_toNat_div (by norm_num)]
  push_cast
  change _ = _ + (rest : ℚ) / ((10 ^ exponent.toNat : Nat) * _) * _
  push_cast
  field_simp
  linear_combination -hCast

section Grid

variable {below rest step : Nat}

/-- A number on the grid is no nearer to the middle than the neighbour on its side,
which is in the interval if it is. -/
theorem neighbour_of_holds (hSearchable : interval.Searchable)
    (hBelow : Decimal.value ⟨below, exponent⟩ ≤ interval.center)
    (hAbove : interval.center ≤ Decimal.value ⟨below + 1, exponent⟩) {digits : Nat}
    (hHolds : interval.Holds (Decimal.value ⟨digits, exponent⟩)) :
    ∃ neighbour, (neighbour = below ∨ neighbour = below + 1) ∧
      interval.Holds (Decimal.value ⟨neighbour, exponent⟩) ∧
      |Decimal.value ⟨neighbour, exponent⟩ - interval.center| ≤
        |Decimal.value ⟨digits, exponent⟩ - interval.center| := by
  rcases le_or_gt digits below with hLe | hLt
  · have hOrder := Decimal.value_le_value hLe exponent
    refine ⟨below, .inl rfl, hHolds.between hSearchable.holds_center hOrder hBelow, ?_⟩
    rw [abs_of_nonpos (by linarith), abs_of_nonpos (by linarith)]
    linarith
  · have hOrder := Decimal.value_le_value (Nat.succ_le_of_lt hLt) exponent
    refine ⟨below + 1, .inr rfl, hSearchable.holds_center.between hHolds hAbove hOrder, ?_⟩
    rw [abs_of_nonneg (by linarith), abs_of_nonneg (by linarith)]
    linarith

/-- Where the middle is between its neighbours tells which of them is nearer. -/
theorem nearer_neighbour {center : ℚ} (hRest : rest < step)
    (hCenter : center = Decimal.value ⟨below, exponent⟩ + rest / step * 10 ^ exponent) :
    Decimal.value ⟨below, exponent⟩ ≤ center ∧ center ≤ Decimal.value ⟨below + 1, exponent⟩ ∧
      (2 * rest ≤ step → |Decimal.value ⟨below, exponent⟩ - center| ≤
        |Decimal.value ⟨below + 1, exponent⟩ - center|) ∧
      (step ≤ 2 * rest → |Decimal.value ⟨below + 1, exponent⟩ - center| ≤
        |Decimal.value ⟨below, exponent⟩ - center|) := by
  have hGrid := ten_zpow_pos exponent
  have hStep : (0 : ℚ) < step := by exact_mod_cast Nat.zero_lt_of_lt hRest
  have hNext := Decimal.value_succ below exponent
  have hLow : 0 ≤ (rest : ℚ) / step * 10 ^ exponent := by positivity
  have hHigh : (rest : ℚ) / step * 10 ^ exponent ≤ 10 ^ exponent :=
    mul_le_of_le_one_left hGrid.le ((div_le_one hStep).mpr (by exact_mod_cast hRest.le))
  rw [hNext, hCenter, abs_of_nonpos (by linarith), abs_of_nonneg (by linarith)]
  refine ⟨by linarith, by linarith, fun hLe => ?_, fun hLe => ?_⟩
  · have hHalf : (rest : ℚ) / step ≤ 1 / 2 := by
      rw [div_le_div_iff₀ hStep two_pos]
      exact_mod_cast (by omega : rest * 2 ≤ 1 * step)
    have hPart := mul_le_mul_of_nonneg_right hHalf hGrid.le
    linarith
  · have hHalf : 1 / 2 ≤ (rest : ℚ) / step := by
      rw [div_le_div_iff₀ two_pos hStep]
      exact_mod_cast (by omega : 1 * step ≤ rest * 2)
    have hPart := mul_le_mul_of_nonneg_right hHalf hGrid.le
    linarith

/-- What a look at a grid finds is the nearest on the grid, and if it finds nothing
then there is nothing. -/
theorem onGrid?_spec (hSearchable : interval.Searchable) (tieUp : Nat → Bool) (exponent : Int) :
    match interval.onGrid? tieUp exponent with
    | some decimal => decimal.exponent = exponent ∧ interval.NearestOnGrid decimal
    | none => interval.Misses exponent := by
  obtain ⟨below, rest, step, hRest, hCenter, hLook⟩ :=
    onGrid?_eq hSearchable.denominator_pos tieUp exponent
  obtain ⟨hBelow, hAbove, hFloor, hCeil⟩ := nearer_neighbour hRest hCenter
  have hIn : ∀ digits, interval.contains ⟨digits, exponent⟩ = true →
      interval.Holds (Decimal.value ⟨digits, exponent⟩) := fun digits =>
    (contains_iff hSearchable.denominator_pos ⟨digits, exponent⟩).mp
  have hOut : ∀ digits, interval.contains ⟨digits, exponent⟩ = false →
      ¬interval.Holds (Decimal.value ⟨digits, exponent⟩) := fun digits hFalse hHolds =>
    Bool.false_ne_true (hFalse.symm.trans
      ((contains_iff hSearchable.denominator_pos ⟨digits, exponent⟩).mpr hHolds))
  have hFound : ∀ found, interval.contains ⟨found, exponent⟩ = true →
      (∀ neighbour, neighbour = below ∨ neighbour = below + 1 →
        interval.Holds (Decimal.value ⟨neighbour, exponent⟩) →
          |Decimal.value ⟨found, exponent⟩ - interval.center| ≤
            |Decimal.value ⟨neighbour, exponent⟩ - interval.center|) →
      interval.NearestOnGrid ⟨found, exponent⟩ := by
    refine fun found hContains hNearer => ⟨hIn found hContains, fun digits hHolds => ?_⟩
    obtain ⟨neighbour, hSide, hHolds', hLe⟩ :=
      neighbour_of_holds hSearchable hBelow hAbove hHolds
    exact (hNearer neighbour hSide hHolds').trans hLe
  rw [hLook]
  cases hFirst : interval.contains ⟨below, exponent⟩ with
  | false =>
      cases hSecond : interval.contains ⟨below + 1, exponent⟩ with
      | false =>
          intro digits hHolds
          obtain ⟨neighbour, rfl | rfl, hHolds', -⟩ :=
            neighbour_of_holds hSearchable hBelow hAbove hHolds
          · exact hOut _ hFirst hHolds'
          · exact hOut _ hSecond hHolds'
      | true =>
          refine ⟨rfl, hFound _ hSecond ?_⟩
          rintro neighbour (rfl | rfl) hHolds
          · exact absurd hHolds (hOut _ hFirst)
          · exact le_rfl
  | true =>
      cases hSecond : interval.contains ⟨below + 1, exponent⟩ with
      | false =>
          refine ⟨rfl, hFound _ hFirst ?_⟩
          rintro neighbour (rfl | rfl) hHolds
          · exact le_rfl
          · exact absurd hHolds (hOut _ hSecond)
      | true =>
          have hLower : 2 * rest ≤ step → interval.NearestOnGrid ⟨below, exponent⟩ := by
            refine fun hLe => hFound _ hFirst ?_
            rintro neighbour (rfl | rfl) -
            · exact le_rfl
            · exact hFloor hLe
          have hUpper : step ≤ 2 * rest → interval.NearestOnGrid ⟨below + 1, exponent⟩ := by
            refine fun hLe => hFound _ hSecond ?_
            rintro neighbour (rfl | rfl) -
            · exact hCeil hLe
            · exact le_rfl
          simp only
          split_ifs with hLess hMore hTie
          · exact ⟨rfl, hLower hLess.le⟩
          · exact ⟨rfl, hUpper hMore.le⟩
          · exact ⟨rfl, hUpper (not_lt.mp hLess)⟩
          · exact ⟨rfl, hLower (not_lt.mp hMore)⟩

end Grid

/-- The decimal that the search is for: nothing on a coarser grid is in the
interval, and nothing of the interval on its own grid is nearer to the middle. -/
structure IsCoarsest (interval : RoundingInterval) (decimal : Decimal) : Prop
    extends interval.NearestOnGrid decimal where
  coarsest : ∀ exponent, decimal.exponent < exponent → interval.Misses exponent

/-- A search finds the coarsest decimal, if there is nothing above its first grid
and something on one of its grids. -/
theorem search_isCoarsest (hSearchable : interval.Searchable) (tieUp : Nat → Bool)
    {grids : Nat} {exponent : Int} (hAbove : ∀ above, exponent < above → interval.Misses above)
    {hit : Int} (hLow : exponent - grids < hit) (hHigh : hit ≤ exponent)
    (hHit : ¬interval.Misses hit) :
    ∃ decimal, interval.search tieUp grids exponent = some decimal ∧
      interval.IsCoarsest decimal := by
  induction grids generalizing exponent with
  | zero => omega
  | succ grids ih =>
      have hSpec := onGrid?_spec hSearchable tieUp exponent
      rw [search]
      cases hLook : interval.onGrid? tieUp exponent with
      | some decimal =>
          rw [hLook] at hSpec
          obtain ⟨rfl, hNearest⟩ := hSpec
          exact ⟨decimal, rfl, hNearest, hAbove⟩
      | none =>
          rw [hLook] at hSpec
          have hOther : hit ≠ exponent := by
            rintro rfl
            exact hHit hSpec
          refine ih ?_ (by omega) (by omega)
          intro above hLt
          by_cases hSame : above = exponent
          · exact hSame ▸ hSpec
          · exact hAbove above (by omega)

end RoundingInterval

end PageGen
