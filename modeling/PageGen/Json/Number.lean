import PageGen.Json.Cursor

/-! Numbers. A literal without a point and an exponent that fits is an integer.
Any other is read as a significand of 64 bits, whose surplus digits are dropped,
and a power of ten, and the double is what one multiplication or division of the
two gives. This is not always the double nearest to the literal. -/
namespace PageGen

namespace Json

/-- A number as it was read. -/
inductive Number where
  | integer (n : Int)
  | float (x : Float)

/-- Appends decimal digits to a number until one would take it beyond a limit.
Gives the number and how many digits were appended. -/
def gather (limit : Nat) : List Char → Nat → Nat × Nat
  | [], value => (value, 0)
  | c :: rest, value =>
    let longer := value * 10 + (c.toNat - '0'.toNat)
    if longer ≤ limit then
      let (final, kept) := gather limit rest longer
      (final, kept + 1)
    else (value, 0)

/-- The largest significand, and the largest integer: all of 64 bits are set. -/
def significandLimit : Nat := 0xFFFFFFFFFFFFFFFF

/-- The largest magnitude of a negative integer. -/
def negativeLimit : Nat := 0x8000000000000000

/-- The largest exponent that is told apart. -/
def exponentLimit : Nat := 0x7FFFFFFF

/-- The double nearest to a power of ten, for exponents up to 308. -/
def powerOfTen (exponent : Nat) : Float := Float.ofScientific 1 false exponent

/-- A double times a power of ten, with one rounding for each factor. Gives
nothing if the product is infinite. -/
def scaleByTen? (x : Float) (exponent : Int) : Option Float :=
  if 0 ≤ exponent then
    if exponent ≤ 308 then
      let product := x * powerOfTen exponent.toNat
      if product.isInf then none else some product
    else if x == 0 then some x
    else none
  else if -308 ≤ exponent then some (x / powerOfTen (-exponent).toNat)
  else if x == 0 then some x
  else scaleByTen? (x / powerOfTen 308) (exponent + 308)
termination_by (-exponent).toNat
decreasing_by omega

/-- The double nearest to a significand. -/
def significandFloat (value : Nat) : Float := value.toUInt64.toFloat

def withSign (negative : Bool) (x : Float) : Float := if negative then -x else x

/-- The double for a significand and a power of ten. -/
def floatOfParts (negative : Bool) (value : Nat) (exponent : Int) (cursor : Cursor) :
    Scan Number :=
  match scaleByTen? (significandFloat value) exponent with
  | some x => .done (.float (withSign negative x)) cursor
  | none => .fault .numberOutOfRange cursor.offset

/-- An integer, if it fits into 64 bits, the negative ones with their sign.
Minus zero is a double. -/
def integerOfParts (negative : Bool) (value : Nat) : Number :=
  if negative then
    if value = 0 ∨ negativeLimit < value then .float (-(significandFloat value))
    else .integer (-(value : Int))
  else .integer value

def Cursor.drop (cursor : Cursor) (count : Nat) : Cursor :=
  ⟨cursor.rest.drop count, cursor.offset + count⟩

def Cursor.digits (cursor : Cursor) : List Char := cursor.rest.takeWhile Char.isDigit

/-- Past the sign of an exponent, with whether it is negative. -/
def Cursor.exponentSign (cursor : Cursor) : Bool × Cursor :=
  match cursor.rest with
  | '+' :: _ => (false, cursor.drop 1)
  | '-' :: _ => (true, cursor.drop 1)
  | _ => (false, cursor)

/-- Reads what comes after the `e` of an exponent. An exponent beyond all
limits makes the number zero, or is out of range. -/
def scanExponent (negative : Bool) (value : Nat) (exponent : Int) (cursor : Cursor) :
    Scan Number :=
  let (down, start) := cursor.exponentSign
  match start.rest, start.digits with
  | [], _ => .fault .endInValue start.offset
  | _ :: _, [] => .fault .invalidNumber (start.offset + 1)
  | _ :: _, digits =>
    let (size, kept) := gather exponentLimit digits 0
    if kept < digits.length then
      if value ≠ 0 ∧ down = false then .fault .numberOutOfRange (start.offset + kept + 1)
      else .done (.float (withSign negative 0)) (start.drop digits.length)
    else
      floatOfParts negative value (if down then exponent - size else exponent + size)
        (start.drop digits.length)

def Cursor.atExponent (cursor : Cursor) : Bool :=
  match cursor.rest with
  | c :: _ => c == 'e' || c == 'E'
  | [] => false

def scanFloatEnd (negative : Bool) (value : Nat) (exponent : Int) (cursor : Cursor) :
    Scan Number :=
  if cursor.atExponent then scanExponent negative value exponent (cursor.drop 1)
  else floatOfParts negative value exponent cursor

/-- Reads what comes after the digits of the integer part, of which some may
have been dropped. -/
def scanNumberEnd (negative : Bool) (value dropped : Nat) (cursor : Cursor) : Scan Number :=
  match cursor.rest with
  | '.' :: rest =>
    let start := cursor.drop 1
    match rest, start.digits with
    | [], _ => .fault .endInValue start.offset
    | _ :: _, [] => .fault .invalidNumber (start.offset + 1)
    | _ :: _, digits =>
      let (longer, kept) := gather significandLimit digits value
      scanFloatEnd negative longer (dropped - kept) (start.drop digits.length)
  | _ =>
    if cursor.atExponent || decide (0 < dropped) then
      scanFloatEnd negative value dropped cursor
    else .done (integerOfParts negative value) cursor

def scanNumber (negative : Bool) (cursor : Cursor) : Scan Number :=
  match cursor.rest, cursor.digits with
  | [], _ => .fault .endInValue cursor.offset
  | _ :: _, [] => .fault .invalidNumber (cursor.offset + 1)
  | _ :: _, '0' :: _ :: _ => .fault .invalidNumber (cursor.offset + 2)
  | _ :: _, digits =>
    let (value, kept) := gather significandLimit digits 0
    scanNumberEnd negative value (digits.length - kept) (cursor.drop digits.length)

def skipExponent (cursor : Cursor) : Scan Unit :=
  if cursor.atExponent then
    let start := (cursor.drop 1).exponentSign.2
    match start.digits with
    | [] => .fault .invalidNumber start.peeked
    | digits => .done () (start.drop digits.length)
  else .done () cursor

/-- Passes over a number from behind its sign. How large it is does not matter. -/
def skipNumber (cursor : Cursor) : Scan Unit :=
  match cursor.digits with
  | [] => .fault .invalidNumber cursor.peeked
  | '0' :: _ :: _ => .fault .invalidNumber (cursor.offset + 2)
  | digits =>
    let after := cursor.drop digits.length
    match after.rest with
    | '.' :: _ =>
      let start := after.drop 1
      match start.digits with
      | [] => .fault .invalidNumber start.peeked
      | digits => skipExponent (start.drop digits.length)
    | _ => skipExponent after

theorem Cursor.length_drop_le (cursor : Cursor) (count : Nat) :
    (cursor.drop count).rest.length ≤ cursor.rest.length := by
  simp [Cursor.drop]

theorem Cursor.length_exponentSign_le (cursor : Cursor) :
    cursor.exponentSign.2.rest.length ≤ cursor.rest.length := by
  unfold Cursor.exponentSign
  split <;> simp [Cursor.drop]

theorem length_floatOfParts_le {negative : Bool} {significand : Nat} {exponent : Int}
    {cursor next : Cursor} {value : Number}
    (hScan : floatOfParts negative significand exponent cursor = .done value next) :
    next.rest.length ≤ cursor.rest.length := by
  unfold floatOfParts at hScan
  split at hScan
  · simp only [Scan.done.injEq] at hScan
    simp [hScan.2]
  · simp at hScan

theorem length_scanExponent_le {negative : Bool} {significand : Nat} {exponent : Int}
    {cursor next : Cursor} {value : Number}
    (hScan : scanExponent negative significand exponent cursor = .done value next) :
    next.rest.length ≤ cursor.rest.length := by
  have hSign := cursor.length_exponentSign_le
  unfold scanExponent at hScan
  simp only at hScan
  split at hScan
  · simp at hScan
  · simp at hScan
  · have hDrop := cursor.exponentSign.2.length_drop_le cursor.exponentSign.2.digits.length
    split at hScan
    · split at hScan
      · simp at hScan
      · simp only [Scan.done.injEq] at hScan
        rw [← hScan.2]
        omega
    · exact Nat.le_trans (Nat.le_trans (length_floatOfParts_le hScan) hDrop) hSign

theorem length_scanFloatEnd_le {negative : Bool} {significand : Nat} {exponent : Int}
    {cursor next : Cursor} {value : Number}
    (hScan : scanFloatEnd negative significand exponent cursor = .done value next) :
    next.rest.length ≤ cursor.rest.length := by
  unfold scanFloatEnd at hScan
  split at hScan
  · exact Nat.le_trans (length_scanExponent_le hScan) (cursor.length_drop_le 1)
  · exact length_floatOfParts_le hScan

theorem length_scanNumberEnd_le {negative : Bool} {significand dropped : Nat}
    {cursor next : Cursor} {value : Number}
    (hScan : scanNumberEnd negative significand dropped cursor = .done value next) :
    next.rest.length ≤ cursor.rest.length := by
  unfold scanNumberEnd at hScan
  split at hScan
  · simp only at hScan
    split at hScan
    · simp at hScan
    · simp at hScan
    · exact Nat.le_trans (length_scanFloatEnd_le hScan)
        (Nat.le_trans (Cursor.length_drop_le _ _) (cursor.length_drop_le 1))
  · split at hScan
    · exact length_scanFloatEnd_le hScan
    · simp only [Scan.done.injEq] at hScan
      simp [hScan.2]

theorem length_scanNumber_le {negative : Bool} {cursor next : Cursor} {value : Number}
    (hScan : scanNumber negative cursor = .done value next) :
    next.rest.length ≤ cursor.rest.length := by
  unfold scanNumber at hScan
  split at hScan
  · simp at hScan
  · simp at hScan
  · simp at hScan
  · exact Nat.le_trans (length_scanNumberEnd_le hScan) (cursor.length_drop_le _)

theorem length_skipExponent_le {cursor next : Cursor} {value : Unit}
    (hScan : skipExponent cursor = .done value next) :
    next.rest.length ≤ cursor.rest.length := by
  unfold skipExponent at hScan
  split at hScan
  · simp only at hScan
    split at hScan
    · simp at hScan
    · simp only [Scan.done.injEq] at hScan
      rw [← hScan.2]
      exact Nat.le_trans (Cursor.length_drop_le _ _)
        (Nat.le_trans (Cursor.length_exponentSign_le _) (cursor.length_drop_le 1))
  · simp only [Scan.done.injEq] at hScan
    simp [hScan.2]

theorem length_skipNumber_le {cursor next : Cursor} {value : Unit}
    (hScan : skipNumber cursor = .done value next) :
    next.rest.length ≤ cursor.rest.length := by
  unfold skipNumber at hScan
  split at hScan
  · simp at hScan
  · simp at hScan
  · simp only at hScan
    have hDrop := cursor.length_drop_le cursor.digits.length
    split at hScan
    · split at hScan
      · simp at hScan
      · exact Nat.le_trans (length_skipExponent_le hScan)
          (Nat.le_trans (Cursor.length_drop_le _ _)
            (Nat.le_trans (Cursor.length_drop_le _ 1) hDrop))
    · exact Nat.le_trans (length_skipExponent_le hScan) hDrop

end Json

end PageGen
