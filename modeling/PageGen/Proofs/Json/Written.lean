import PageGen.Json.Value

/-! JSON as it may be written. A value has many texts: blanks may stand between
any two tokens, and a character of a string may be escaped in several ways. A
number has whatever texts are read as it. How deep a value may be nested is part
of what it means to be written: each container takes up one level of the room
that there is. -/
namespace PageGen.Json

/-- White space between tokens. -/
def Blanks (text : List Char) : Prop := ∀ c ∈ text, c ∈ [' ', '\n', '\t', '\r']

/-- A hexadecimal digit, in either case. -/
def HexDigit (value : Nat) (c : Char) : Prop :=
  "0123456789abcdef".toList[value]? = some c ∨ "0123456789ABCDEF".toList[value]? = some c

/-- Four hexadecimal digits. -/
inductive UnitWritten : Nat → List Char → Prop where
  | intro {first second third fourth : Nat} {c₁ c₂ c₃ c₄ : Char} (hFirst : HexDigit first c₁)
      (hSecond : HexDigit second c₂) (hThird : HexDigit third c₃)
      (hFourth : HexDigit fourth c₄) :
      UnitWritten (((first * 16 + second) * 16 + third) * 16 + fourth) [c₁, c₂, c₃, c₄]

/-- The escapes of two characters, each with what it stands for. -/
def shortEscapes : List (Char × Char) :=
  [('\x22', '\x22'), ('\x5c', '\x5c'), ('/', '/'), ('b', '\x08'), ('f', '\x0c'), ('n', '\n'),
    ('r', '\r'), ('t', '\t')]

/-- A character of a string as it may be written. Beyond the first 65536 an
escape takes two units. -/
inductive CharWritten : Char → List Char → Prop where
  | plain {c : Char} (hQuote : c ≠ '\x22') (hBackslash : c ≠ '\x5c') (hControl : 0x20 ≤ c.toNat) :
      CharWritten c [c]
  | short {letter c : Char} (hShort : (letter, c) ∈ shortEscapes) :
      CharWritten c ['\x5c', letter]
  | unit {c : Char} {digits : List Char} (hDigits : UnitWritten c.toNat digits) :
      CharWritten c ('\x5c' :: 'u' :: digits)
  | pair {c : Char} {high low : Nat} {digits more : List Char}
      (hHigh : 0xD800 ≤ high ∧ high ≤ 0xDBFF) (hLow : 0xDC00 ≤ low ∧ low ≤ 0xDFFF)
      (hChar : c.toNat = 0x10000 + (high - 0xD800) * 0x400 + (low - 0xDC00))
      (hDigits : UnitWritten high digits) (hMore : UnitWritten low more) :
      CharWritten c ('\x5c' :: 'u' :: (digits ++ '\x5c' :: 'u' :: more))

inductive CharsWritten : List Char → List Char → Prop where
  | nil : CharsWritten [] []
  | cons {c : Char} {rest text others : List Char} (hFirst : CharWritten c text)
      (hRest : CharsWritten rest others) : CharsWritten (c :: rest) (text ++ others)

/-- A string in its quotes. -/
inductive StringWritten (s : String) : List Char → Prop where
  | intro {text : List Char} (hChars : CharsWritten s.toList text) :
      StringWritten s ('\x22' :: (text ++ ['\x22']))

/-- A number in any text that is read as this number, up to the end of the text. -/
inductive NumberWritten (n : Number) : List Char → Prop where
  | positive {text : List Char} {bytes : Nat}
      (hScan : scanNumber false ⟨text, 0⟩ = .done n ⟨[], bytes⟩) : NumberWritten n text
  | negative {text : List Char} {bytes : Nat}
      (hScan : scanNumber true ⟨text, 0⟩ = .done n ⟨[], bytes⟩) : NumberWritten n ('-' :: text)

/-- Items with commas between them and blanks around each. -/
inductive Separated {ι : Type} (written : ι → List Char → Prop) : List ι → List Char → Prop where
  | nil {blanks : List Char} (hBlanks : Blanks blanks) : Separated written [] blanks
  | single {item : ι} {before text after : List Char} (hBefore : Blanks before)
      (hItem : written item text) (hAfter : Blanks after) :
      Separated written [item] (before ++ (text ++ after))
  | cons {item next : ι} {rest : List ι} {before text after others : List Char}
      (hBefore : Blanks before) (hItem : written item text) (hAfter : Blanks after)
      (hRest : Separated written (next :: rest) others) :
      Separated written (item :: next :: rest) (before ++ (text ++ (after ++ ',' :: others)))

/-- A key and its value, with blanks around the colon. -/
inductive EntryWritten (written : Json → List Char → Prop) : String × Json → List Char → Prop where
  | intro {key : String} {value : Json} {keyText before after text : List Char}
      (hKey : StringWritten key keyText) (hBefore : Blanks before) (hAfter : Blanks after)
      (hValue : written value text) :
      EntryWritten written (key, value) (keyText ++ (before ++ ':' :: (after ++ text)))

/-- A value that is no container. -/
inductive ScalarWritten : Json → List Char → Prop where
  | null : ScalarWritten .null "null".toList
  | true : ScalarWritten (.boolean true) "true".toList
  | false : ScalarWritten (.boolean false) "false".toList
  | integer {n : Int} {text : List Char} (hNumber : NumberWritten (.integer n) text) :
      ScalarWritten (.integer n) text
  | float {x : Float} {text : List Char} (hNumber : NumberWritten (.float x) text) :
      ScalarWritten (.float x) text
  | string {s : String} {text : List Char} (hString : StringWritten s text) :
      ScalarWritten (.string s) text

/-- A container whose values are written in a given way. -/
inductive ContainerWritten (written : Json → List Char → Prop) : Json → List Char → Prop where
  | array {items : List Json} {text : List Char} (hItems : Separated written items text) :
      ContainerWritten written (.array items) ('[' :: (text ++ [']']))
  | object {entries : List (String × Json)} {text : List Char}
      (hEntries : Separated (EntryWritten written) entries text) :
      ContainerWritten written (.object entries) ('\x7b' :: (text ++ ['\x7d']))

/-- A value in one of its texts, with no more than so many containers open at once. -/
def Written : (room : Nat) → Json → List Char → Prop
  | 0, json, text => ScalarWritten json text
  | room + 1, json, text => ScalarWritten json text ∨ ContainerWritten (Written room) json text

end PageGen.Json
