/-!
The hash under which the runtime looks up types and members.

Owns the 64-bit FNV-1a function: starting from the offset basis, each byte is joined by exclusive
or and the word is multiplied by the prime. The table order of members is the order of these words
as unsigned numbers.
-/

namespace TypeRecords

/-- A 64-bit hash of a qualified name. -/
structure NameHash where
  word : UInt64
deriving DecidableEq, Repr, Inhabited

namespace NameHash

/-- The hash of the empty byte string. -/
def offsetBasis : UInt64 := 0xcbf29ce484222325

/-- The odd multiplier of every step. -/
def prime : UInt64 := 0x00000100000001b3

/-- Takes in one byte. -/
def step (word : UInt64) (byte : UInt8) : UInt64 := (word ^^^ byte.toUInt64) * prime

/-- The hash of a byte string. -/
def ofBytes (bytes : List UInt8) : NameHash := ⟨bytes.foldl step offsetBasis⟩

/-- The hash of a name, taken over its UTF-8 bytes. -/
def of (name : String) : NameHash := ofBytes name.toUTF8.toList

/-- The word as stored in a signed record field. -/
def signed (hash : NameHash) : Int64 := hash.word.toInt64

/-- `0x` and sixteen lower-case hexadecimal digits. -/
def display (hash : NameHash) : String :=
  let digits := Nat.toDigits 16 hash.word.toNat
  "0x" ++ String.ofList (List.replicate (16 - digits.length) '0' ++ digits)

/-- Whether one hash stands before another, or at the same place, in a table. -/
def atMost (left right : NameHash) : Bool := left.word ≤ right.word

end NameHash

end TypeRecords
