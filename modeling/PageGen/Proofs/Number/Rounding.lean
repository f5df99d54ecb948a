import Mathlib
import PageGen.Number.Text

/-! Doubles as rationals, and rounding to the nearest of them. The doubles are
numbered in their order, by the bits of their magnitudes and their signs, so that
neighbours have neighbouring numbers and a double is even if its number is. -/
namespace PageGen

namespace Binary64

/-- The bits of infinity. All smaller ones are those of numbers. -/
def infinityBits : Nat := 0x7FF0000000000000

def significand (bits : Nat) : Nat :=
  if bits / leadingBit = 0 then bits else leadingBit + bits % leadingBit

def exponent (bits : Nat) : Int :=
  if bits / leadingBit = 0 then -1074 else (bits / leadingBit : Nat) - 1075

/-- The number with these bits. The bits of infinity stand for the power of two
that comes after the largest double. -/
def magnitude (bits : Nat) : ℚ := significand bits * 2 ^ exponent bits

/-- Each double is one unit of its last bit below the next one. -/
theorem magnitude_succ (bits : Nat) :
    magnitude (bits + 1) = magnitude bits + 2 ^ exponent bits := by
  have hStep : (significand (bits + 1) = significand bits + 1 ∧
        exponent (bits + 1) = exponent bits) ∨
      (significand (bits + 1) * 2 = significand bits + 1 ∧
        exponent (bits + 1) = exponent bits + 1) := by
    unfold significand exponent leadingBit
    split_ifs <;> omega
  rcases hStep with ⟨hSignificand, hExponent⟩ | ⟨hSignificand, hExponent⟩
  · rw [magnitude, magnitude, hSignificand, hExponent]
    push_cast
    ring
  · have hCast : (significand (bits + 1) : ℚ) * 2 = significand bits + 1 := by
      exact_mod_cast hSignificand
    have hPower : (2 : ℚ) ^ (exponent bits + 1) = 2 ^ exponent bits * 2 :=
      zpow_add_one₀ two_ne_zero _
    rw [magnitude, magnitude, hExponent, hPower]
    linear_combination (2 : ℚ) ^ exponent bits * hCast

theorem magnitude_zero : magnitude 0 = 0 := by simp [magnitude, significand]

/-- The double with this number. -/
def value : Int → ℚ
  | .ofNat bits => magnitude bits
  | .negSucc bits => -magnitude (bits + 1)

theorem value_natCast (bits : Nat) : value bits = magnitude bits := rfl

theorem value_neg (i : Int) : value (-i) = -value i := by
  cases i with
  | ofNat bits =>
      cases bits with
      | zero => exact (neg_eq_zero.mpr magnitude_zero).symm ▸ magnitude_zero
      | succ bits => rfl
  | negSucc bits => exact (neg_neg _).symm

theorem value_strictMono : StrictMono value := by
  have hNat : ∀ bits, magnitude bits < magnitude (bits + 1) := by
    intro bits
    rw [magnitude_succ]
    have hUnit : (0 : ℚ) < 2 ^ exponent bits := zpow_pos two_pos _
    linarith
  refine strictMono_int_of_lt_succ fun i => ?_
  cases i with
  | ofNat bits => exact hNat bits
  | negSucc bits =>
      cases bits with
      | zero =>
          change -magnitude 1 < magnitude 0
          have hFirst := hNat 0
          rw [magnitude_zero] at hFirst ⊢
          exact neg_lt_zero.mpr hFirst
      | succ bits => exact neg_lt_neg (hNat (bits + 1))

/-- Rounding to nearest, ties to even: no double is nearer, and if another one is
as near, then this one is even. A number that is nearest to the bits of infinity
rounds to no double. -/
structure RoundsTo (r : ℚ) (i : Int) : Prop where
  finite : i.natAbs < infinityBits
  nearest : ∀ k : Int, k.natAbs ≤ infinityBits → |r - value i| ≤ |r - value k|
  even : ∀ k : Int, k.natAbs ≤ infinityBits → k ≠ i → |r - value k| = |r - value i| → i % 2 = 0

/-- The point between a double and the next one. -/
def halfway (i : Int) : ℚ := (value i + value (i + 1)) / 2

theorem halfway_strictMono : StrictMono halfway := by
  intro i k hLt
  have hFirst : value i < value k := value_strictMono hLt
  have hSecond : value (i + 1) < value (k + 1) := value_strictMono (by omega)
  unfold halfway
  linarith

section Nearer

variable {r low high : ℚ}

theorem nearer_high_iff (hLt : low < high) : |r - high| ≤ |r - low| ↔ (low + high) / 2 ≤ r := by
  rcases abs_cases (r - high) with ⟨hHigh, hSign⟩ | ⟨hHigh, hSign⟩ <;>
    rcases abs_cases (r - low) with ⟨hLow, hSign'⟩ | ⟨hLow, hSign'⟩ <;>
      rw [hHigh, hLow] <;> constructor <;> intro <;> linarith

theorem nearer_low_iff (hLt : low < high) : |r - low| ≤ |r - high| ↔ r ≤ (low + high) / 2 := by
  rcases abs_cases (r - high) with ⟨hHigh, hSign⟩ | ⟨hHigh, hSign⟩ <;>
    rcases abs_cases (r - low) with ⟨hLow, hSign'⟩ | ⟨hLow, hSign'⟩ <;>
      rw [hHigh, hLow] <;> constructor <;> intro <;> linarith

theorem tie_iff (hLt : low < high) : |r - low| = |r - high| ↔ r = (low + high) / 2 := by
  rw [le_antisymm_iff, nearer_low_iff hLt, nearer_high_iff hLt, ← le_antisymm_iff]

end Nearer

variable {r s : ℚ} {i k : Int}

/-- What rounds to a double lies between the points half-way to its neighbours, or
on one of these if the double is even. -/
theorem roundsTo_iff (hFinite : i.natAbs < infinityBits) :
    RoundsTo r i ↔ halfway (i - 1) ≤ r ∧ r ≤ halfway i ∧
      (r = halfway (i - 1) ∨ r = halfway i → i % 2 = 0) := by
  have hBefore : value (i - 1) < value i := value_strictMono (by omega)
  have hAfter : value i < value (i + 1) := value_strictMono (by omega)
  have hLower : halfway (i - 1) = (value (i - 1) + value i) / 2 := by
    rw [halfway, sub_add_cancel]
  rw [hLower, halfway]
  constructor
  · intro hRounds
    refine ⟨(nearer_high_iff hBefore).mp (hRounds.nearest (i - 1) (by omega)),
      (nearer_low_iff hAfter).mp (hRounds.nearest (i + 1) (by omega)), ?_⟩
    rintro (hTie | hTie)
    · exact hRounds.even (i - 1) (by omega) (by omega) ((tie_iff hBefore).mpr hTie)
    · exact hRounds.even (i + 1) (by omega) (by omega) ((tie_iff hAfter).mpr hTie).symm
  · rintro ⟨hLow, hHigh, hEven⟩
    refine ⟨hFinite, fun k _ => ?_, fun k _ hOther hTie => ?_⟩
    · rcases lt_trichotomy k i with hLt | rfl | hLt
      · have hLe : value k ≤ value (i - 1) := value_strictMono.monotone (by omega)
        exact (nearer_high_iff (value_strictMono hLt)).mpr (by linarith)
      · exact le_rfl
      · have hLe : value (i + 1) ≤ value k := value_strictMono.monotone (by omega)
        exact (nearer_low_iff (value_strictMono hLt)).mpr (by linarith)
    · rcases lt_or_gt_of_ne hOther with hLt | hLt
      · have hLe : value k ≤ value (i - 1) := value_strictMono.monotone (by omega)
        have hMiddle := (tie_iff (value_strictMono hLt)).mp hTie
        exact hEven (.inl (by linarith))
      · have hLe : value (i + 1) ≤ value k := value_strictMono.monotone (by omega)
        have hMiddle := (tie_iff (value_strictMono hLt)).mp hTie.symm
        exact hEven (.inr (by linarith))

theorem roundsTo_value (hFinite : i.natAbs < infinityBits) : RoundsTo (value i) i := by
  have hBefore : value (i - 1) < value i := value_strictMono (by omega)
  have hAfter : value i < value (i + 1) := value_strictMono (by omega)
  rw [roundsTo_iff hFinite, halfway, halfway, sub_add_cancel]
  refine ⟨by linarith, by linarith, ?_⟩
  rintro (hTie | hTie) <;> linarith

namespace RoundsTo

theorem neg (hRounds : RoundsTo r i) : RoundsTo (-r) (-i) where
  finite := by simpa using hRounds.finite
  nearest k hFinite := by
    have hNearest := hRounds.nearest (-k) (by simpa using hFinite)
    rw [value_neg] at hNearest ⊢
    rw [← abs_neg, ← abs_neg (-r - value k)]
    convert hNearest using 2 <;> ring
  even k hFinite hOther hTie := by
    have hEven := hRounds.even (-k) (by simpa using hFinite) (by omega)
    rw [value_neg] at hEven hTie
    rw [← abs_neg, ← abs_neg (-r - -value i)] at hTie
    have hParity := hEven (by convert hTie using 2 <;> ring)
    omega

/-- Rounding keeps the order. -/
theorem mono (hFirst : RoundsTo r i) (hSecond : RoundsTo s k) (hLe : r ≤ s) : i ≤ k := by
  by_contra hLt
  obtain ⟨hLow, -, hEven⟩ := (roundsTo_iff hFirst.finite).mp hFirst
  obtain ⟨-, hHigh, hEven'⟩ := (roundsTo_iff hSecond.finite).mp hSecond
  have hOrder : halfway k ≤ halfway (i - 1) := halfway_strictMono.monotone (by omega)
  -- Both lie on the point between two neighbours, of which one is not even.
  have hSame : i - 1 = k := halfway_strictMono.injective (by linarith)
  have hFirstEven := hEven (.inl (by linarith))
  have hSecondEven := hEven' (.inr (by linarith))
  omega

theorem unique (hFirst : RoundsTo r i) (hSecond : RoundsTo r k) : i = k :=
  le_antisymm (hFirst.mono hSecond le_rfl) (hSecond.mono hFirst le_rfl)

end RoundsTo

end Binary64

end PageGen
