/-! White space in the widest sense, which decides whether a text is empty. The
white space between the tokens of JSON is a smaller set. -/
namespace PageGen

/-- First and last code points of the ranges that count as white space. -/
def blankRanges : List (Nat × Nat) :=
  [(0x9, 0xD), (0x20, 0x20), (0x85, 0x85), (0xA0, 0xA0), (0x1680, 0x1680), (0x2000, 0x200A),
    (0x2028, 0x2029), (0x202F, 0x202F), (0x205F, 0x205F), (0x3000, 0x3000)]

def isBlank (c : Char) : Bool :=
  blankRanges.any fun range => decide (range.1 ≤ c.toNat) && decide (c.toNat ≤ range.2)

def isBlankText (text : List Char) : Bool := text.all isBlank

end PageGen
