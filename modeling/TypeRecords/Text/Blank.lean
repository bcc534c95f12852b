/-!
White space at the ends of a text.

Owns the table of white-space characters, which is the Unicode property of that name, and the two
ways of trimming by it.
-/

namespace TypeRecords.Text

/-- Whether the character has the property `White_Space`. -/
def isBlank (character : Char) : Bool :=
  let code := character.toNat
  (0x09 ≤ code && code ≤ 0x0d) || code == 0x20 || code == 0x85 || code == 0xa0 ||
    code == 0x1680 || (0x2000 ≤ code && code ≤ 0x200a) || code == 0x2028 || code == 0x2029 ||
    code == 0x202f || code == 0x205f || code == 0x3000

/-- Drops the blanks at the end. -/
def trimRight (characters : List Char) : List Char :=
  (characters.reverse.dropWhile isBlank).reverse

/-- Drops the blanks at both ends. -/
def trim (characters : List Char) : List Char :=
  trimRight (characters.dropWhile isBlank)

/-- Fills up with spaces on the right to the given number of characters. -/
def padRight (width : Nat) (text : String) : String :=
  text ++ String.ofList (List.replicate (width - text.length) ' ')

/-- Fills up with spaces on the left to the given number of characters. -/
def padLeft (width : Nat) (text : String) : String :=
  String.ofList (List.replicate (width - text.length) ' ') ++ text

end TypeRecords.Text
