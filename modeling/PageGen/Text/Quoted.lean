import PageGen.Text.Invisible

/-! Strings in messages: in double quotes, on one line, with nothing in them
that cannot be seen. -/
namespace PageGen

/-- A character by its number, in hexadecimal. -/
def numberedChar (c : Char) : List Char :=
  '\x5c' :: 'u' :: '\x7b' :: (Nat.toDigits 16 c.toNat ++ ['\x7d'])

def quotedChar (c : Char) : List Char :=
  if c = '\x00' then ['\x5c', '0']
  else if c = '\t' then ['\x5c', 't']
  else if c = '\r' then ['\x5c', 'r']
  else if c = '\n' then ['\x5c', 'n']
  else if c = '\x22' then ['\x5c', '\x22']
  else if c = '\x5c' then ['\x5c', '\x5c']
  else if c.toNat < 0x20 ∨ c.toNat = 0x7F ∨ isInvisible c = true then numberedChar c
  else [c]

def quoted (text : String) : String :=
  String.ofList ('\x22' :: (text.toList.flatMap quotedChar ++ ['\x22']))

end PageGen
