/-!
Texts as bytes.

Owns the conversion of texts to and from their UTF-8 bytes, and the place where a byte string stops
being UTF-8. A sequence breaks either at a byte that cannot continue it, or because the string
ends too early.
-/

namespace TypeRecords.Text

/-- The UTF-8 bytes of a text. -/
def utf8 (text : String) : List UInt8 := text.toUTF8.toList

/-- The text of UTF-8 bytes. -/
def ofUtf8? (bytes : List UInt8) : Option String := String.fromUTF8? ⟨bytes.toArray⟩

/-- Where a byte string stops being UTF-8. -/
structure Utf8Break where
  /-- The number of bytes that form whole characters. -/
  validUpTo : Nat
  /-- The number of bytes in the broken sequence, unless the string ended inside it. -/
  length : Option Nat
deriving DecidableEq, Repr

namespace Utf8Break

def message (place : Utf8Break) : String :=
  match place.length with
  | some length => s!"invalid utf-8 sequence of {length} bytes from index {place.validUpTo}"
  | none => s!"incomplete utf-8 byte sequence from index {place.validUpTo}"

/-- The number of bytes behind the first byte of a sequence, and what the second one may be. -/
def continuations (first : UInt8) : Option (Nat × UInt8 × UInt8) :=
  if first < 0x80 then some (0, 0, 0)
  else if 0xc2 ≤ first ∧ first ≤ 0xdf then some (1, 0x80, 0xbf)
  else if first = 0xe0 then some (2, 0xa0, 0xbf)
  else if first = 0xed then some (2, 0x80, 0x9f)
  else if 0xe1 ≤ first ∧ first ≤ 0xef then some (2, 0x80, 0xbf)
  else if first = 0xf0 then some (3, 0x90, 0xbf)
  else if first = 0xf4 then some (3, 0x80, 0x8f)
  else if 0xf1 ≤ first ∧ first ≤ 0xf3 then some (3, 0x80, 0xbf)
  else none

/-- Looks for the break from some position on. `expected` bytes are still to come in the sequence
that starts at `start`, and the next of them must lie between `low` and `high`. -/
def findFrom (position start expected : Nat) (low high : UInt8) :
    List UInt8 → Option Utf8Break
  | [] => if expected = 0 then none else some ⟨start, none⟩
  | byte :: rest =>
    if expected = 0 then
      match continuations byte with
      | none => some ⟨position, some 1⟩
      | some (count, low, high) => findFrom (position + 1) position count low high rest
    else if low ≤ byte ∧ byte ≤ high then
      findFrom (position + 1) start (expected - 1) 0x80 0xbf rest
    else some ⟨start, some (position - start)⟩

/-- The first break of a byte string. -/
def find? (bytes : List UInt8) : Option Utf8Break := findFrom 0 0 0 0 0 bytes

end Utf8Break

end TypeRecords.Text
