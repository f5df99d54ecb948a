import PageGen.Number.Binary64

/-! The fewest decimal digits that read back as a given double. A decimal reads
back when it lies among the reals that round to the double; these form an
interval around it, whose ends belong to it when the significand is even. All
arithmetic is exact, on natural numbers. -/
namespace PageGen

/-- The number `digits · 10^exponent`. -/
structure Decimal where
  digits : Nat
  exponent : Int
  deriving DecidableEq, Repr

/-- The reals that round to a double, with the double itself, as numerators
over one common denominator. -/
structure RoundingInterval where
  low : Nat
  value : Nat
  high : Nat
  denominator : Nat
  /-- Whether the two ends round to the double as well. -/
  closed : Bool
  deriving Repr

namespace RoundingInterval

/-- The interval of `m · 2^q`. It ends half-way to the two neighbours, and the
lower neighbour of a power of two is only half as far, unless it is in the
range where doubles are equally spaced. -/
def ofBinary (m : Nat) (q : Int) : RoundingInterval :=
  let narrow := m == Binary64.leadingBit && decide (-1074 < q)
  let up := Nat.pow 2 (q - 2).toNat
  { low := (4 * m - if narrow then 1 else 2) * up
    value := 4 * m * up
    high := (4 * m + 2) * up
    denominator := Nat.pow 2 (2 - q).toNat
    closed := m % 2 == 0 }

/-- Whether `digits · 10^exponent` lies in the interval. -/
def contains (interval : RoundingInterval) (decimal : Decimal) : Bool :=
  let point := decimal.digits * Nat.pow 10 decimal.exponent.toNat * interval.denominator
  let scale := Nat.pow 10 (-decimal.exponent).toNat
  if interval.closed then
    decide (interval.low * scale ≤ point) && decide (point ≤ interval.high * scale)
  else
    decide (interval.low * scale < point) && decide (point < interval.high * scale)

/-- The decimal of the grid of step `10^exponent` that lies in the interval and
is nearest to its value, if one of the value's two neighbours on that grid does.
Of two that are equally near, `tieUp` chooses by the lower one's digits. -/
def onGrid? (tieUp : Nat → Bool) (interval : RoundingInterval) (exponent : Int) : Option Decimal :=
  let step := Nat.pow 10 exponent.toNat * interval.denominator
  let scaled := interval.value * Nat.pow 10 (-exponent).toNat
  let below : Decimal := ⟨scaled / step, exponent⟩
  let above : Decimal := ⟨scaled / step + 1, exponent⟩
  let rest := scaled % step
  match interval.contains below, interval.contains above with
  | true, true =>
    if 2 * rest < step then some below
    else if step < 2 * rest then some above
    else if tieUp below.digits then some above else some below
  | true, false => some below
  | false, true => some above
  | false, false => none

/-- The exponent of the finest power of ten above the value. -/
def topExponent (interval : RoundingInterval) : Int :=
  if interval.denominator ≤ interval.value then
    (Nat.toDigits 10 (interval.value / interval.denominator)).length
  else 1 - (Nat.toDigits 10 (interval.denominator / interval.value)).length

/-- The first hit on grids that get finer by the step. -/
def search (tieUp : Nat → Bool) (interval : RoundingInterval) : Nat → Int → Option Decimal
  | 0, _ => none
  | grids + 1, exponent =>
    match interval.onGrid? tieUp exponent with
    | some decimal => some decimal
    | none => search tieUp interval grids (exponent - 1)

end RoundingInterval

/-- The shortest decimal that reads back as `m · 2^q`, and the nearest to it of
these. Seventeen digits always suffice, so no finer grid is tried. -/
def Decimal.shortest (tieUp : Nat → Bool) (m : Nat) (q : Int) : Decimal :=
  let interval := RoundingInterval.ofBinary m q
  match interval.search tieUp 19 interval.topExponent with
  | some decimal => decimal
  | none => ⟨0, 0⟩

end PageGen
