/-!
Texts as 16-bit code units.

Owns the encoding of a text in UTF-16: one unit for a character of the basic plane, a pair of
surrogates for any other.
-/

namespace TypeRecords.Text

/-- The code units of one character. -/
def utf16Character (character : Char) : List UInt16 :=
  let code := character.toNat
  if code < 0x10000 then [UInt16.ofNat code]
  else
    let offset := code - 0x10000
    [UInt16.ofNat (0xd800 + offset / 0x400), UInt16.ofNat (0xdc00 + offset % 0x400)]

/-- The code units of a text, without a terminator. -/
def utf16Units (text : String) : List UInt16 :=
  text.toList.flatMap utf16Character

end TypeRecords.Text
