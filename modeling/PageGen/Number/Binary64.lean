/-! Doubles as exact numbers. A finite double is `m · 2^q` with a natural
number `m` and an integer `q`; nothing here rounds. -/
namespace PageGen

inductive Binary64 where
  | nan
  | infinite (negative : Bool)
  /-- The number `±m · 2^q`. Both zeros have `m = 0`. -/
  | finite (negative : Bool) (m : Nat) (q : Int)
  deriving DecidableEq, Repr

namespace Binary64

/-- The sign bit, which is the highest of 64. -/
def signBit : Nat := 0x8000000000000000

/-- The lowest exponent bit, above the 52 fraction bits. In a significand it is
the leading bit, which is not written. -/
def leadingBit : Nat := 0x10000000000000

/-- Reads the sign bit, the eleven exponent bits and the 52 fraction bits.
The leading bit is put back for every exponent but the lowest. -/
def ofBits (bits : UInt64) : Binary64 :=
  let negative := bits.toNat / signBit == 1
  let exponent : Nat := bits.toNat / leadingBit % 2048
  let fraction : Nat := bits.toNat % leadingBit
  if exponent = 2047 then
    if fraction = 0 then .infinite negative else .nan
  else if exponent = 0 then .finite negative fraction (-1074)
  else .finite negative (leadingBit + fraction) (exponent - 1075)

def ofFloat (x : Float) : Binary64 := ofBits x.toBits

/-- The bits of the magnitude. Positive doubles are ordered as these numbers are. -/
def magnitudeBits (bits : UInt64) : Nat := bits.toNat % signBit

end Binary64

end PageGen
