import PageGen.Number.Shortest

/-! How numbers are written. The digits are the shortest that read back; what
is decided here is only the layout around them. -/
namespace PageGen

namespace Decimal

def digitChars (decimal : Decimal) : List Char := Nat.toDigits 10 decimal.digits

/-- The position of the point: the number is `0.d₁d₂… · 10^point`. -/
def point (decimal : Decimal) : Int := decimal.digitChars.length + decimal.exponent

/-- All digits in place: `1500`, `15.25`, `0.015`. -/
def positional (decimal : Decimal) : List Char :=
  let digits := decimal.digitChars
  if 0 ≤ decimal.exponent then digits ++ List.replicate decimal.exponent.toNat '0'
  else if 0 < decimal.point then
    digits.take decimal.point.toNat ++ '.' :: digits.drop decimal.point.toNat
  else '0' :: '.' :: (List.replicate (-decimal.point).toNat '0' ++ digits)

/-- One digit before the point, and an exponent with its sign: `1.5e+21`, `1e-7`. -/
def scientific (decimal : Decimal) : List Char :=
  let exponent := decimal.point - 1
  let mantissa :=
    match decimal.digitChars with
    | [] => []
    | [digit] => [digit]
    | digit :: digits => digit :: '.' :: digits
  mantissa ++ 'e' :: (if exponent < 0 then '-' else '+') :: Nat.toDigits 10 exponent.natAbs

end Decimal

def signChars (negative : Bool) : List Char := if negative then ['-'] else []

namespace NumberText

/-- The bits of the double `1e21`, the smallest that is too large for all of its
digits in place. -/
def upperBits : Nat := 0x444B1AE4D6E2EF50

/-- The bits of the double `1e-6`, the smallest with all of its digits in place. -/
def lowerBits : Nat := 0x3EB0C6F7A0B5ED8D

/-- Whether a double is written with an exponent: it is at least `1e21` or
smaller than `1e-6`, signs aside. -/
def usesExponent (bits : UInt64) : Bool :=
  decide (upperBits ≤ Binary64.magnitudeBits bits) ||
    decide (Binary64.magnitudeBits bits < lowerBits)

/-- Of two shortest decimals that are equally near, the larger is written. -/
def tieUp (_ : Nat) : Bool := true

/-- The text of the double with the given bits. Both zeros are written `0`. -/
def ofBits (bits : UInt64) : List Char :=
  match Binary64.ofBits bits with
  | .nan => "NaN".toList
  | .infinite negative => signChars negative ++ "Infinity".toList
  | .finite negative m q =>
    if m = 0 then ['0']
    else
      let decimal := Decimal.shortest tieUp m q
      signChars negative ++
        if usesExponent bits then decimal.scientific else decimal.positional

end NumberText

/-- The text of a number on the page, in scripts and in messages. -/
def numberText (x : Float) : String := String.ofList (NumberText.ofBits x.toBits)

namespace DiagnosticNumber

/-- Of two shortest decimals that are equally near, the one with an even last
digit is written. -/
def tieUp (below : Nat) : Bool := below % 2 == 1

/-- The text of a finite number that was found where another type was due. It
always shows that it is no integer: by a fractional part, which may be `.0`, or
by an exponent, from `1e+16` on and below `1e-5`. -/
def ofBits (bits : UInt64) : List Char :=
  match Binary64.ofBits bits with
  | .nan => "NaN".toList
  | .infinite negative => signChars negative ++ "inf".toList
  | .finite negative m q =>
    signChars negative ++
      if m = 0 then "0.0".toList
      else
        let decimal := Decimal.shortest tieUp m q
        if decimal.point ≤ -5 ∨ 16 < decimal.point then decimal.scientific
        else if 0 ≤ decimal.exponent then decimal.positional ++ ['.', '0']
        else decimal.positional

end DiagnosticNumber

/-- The text of a number in a message about its type. -/
def diagnosticNumber (x : Float) : String := String.ofList (DiagnosticNumber.ofBits x.toBits)

end PageGen
