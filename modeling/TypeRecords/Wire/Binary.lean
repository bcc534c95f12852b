import TypeRecords.Text.Utf8
import TypeRecords.Wire.Value

/-!
The binary form of values.

Owns the encoding of values as bytes and the decoding by a shape. Numbers are little-endian with a
fixed width. Texts and sequences start with a 64-bit length, choices with a 32-bit index, optional
values with a byte that says whether they are there; records are their fields one after the other.
Bytes behind a value are left alone.
-/

namespace TypeRecords.Wire.Binary

/-- The given number of bytes of a number, lowest first. -/
def littleEndian : Nat → Nat → List UInt8
  | 0, _ => []
  | width + 1, number => UInt8.ofNat (number % 256) :: littleEndian width (number / 256)

mutual

/-- The bytes of a value. -/
def encode : Value → List UInt8
  | .flag value => [if value then 1 else 0]
  | .word number => littleEndian 8 number
  | .int32 number => littleEndian 4 number.toUInt32.toNat
  | .int64 number => littleEndian 8 number.toUInt64.toNat
  | .text text => littleEndian 8 (Text.utf8 text).length ++ Text.utf8 text
  | .absent => [0]
  | .present value => 1 :: encode value
  | .sequence items => littleEndian 8 items.length ++ encodeAll items
  | .record fields => encodeAll fields
  | .variant index payload => littleEndian 4 index ++ encodeAll payload

/-- The bytes of values one after the other. -/
def encodeAll : List Value → List UInt8
  | [] => []
  | value :: rest => encode value ++ encodeAll rest

end

/-- Why bytes are no value of a shape. -/
inductive DecodeError where
  | endOfInput
  /-- The length of a text is greater than the number of bytes left. -/
  | textTooLong
  | invalidText (place : Text.Utf8Break)
  | invalidFlag (byte : Nat)
  | invalidTag (byte : Nat)
  | invalidVariant (index count : Nat)
  | mapTooLarge (count : Nat)
deriving DecidableEq, Repr

def DecodeError.message : DecodeError → String
  | .endOfInput => "io error: unexpected end of file"
  | .textTooLong => "io error: "
  | .invalidText place => "string is not valid utf8: " ++ place.message
  | .invalidFlag byte => s!"invalid u8 while decoding bool, expected 0 or 1, found {byte}"
  | .invalidTag byte => s!"tag for enum is not valid, found {byte}"
  | .invalidVariant index count =>
    s!"invalid value: integer `{index}`, expected variant index 0 <= i < {count}"
  | .mapTooLarge count => s!"a map cannot have {count} entries"

/-- Takes something off the front of the bytes. -/
abbrev Decoder (α : Type) := List UInt8 → Except DecodeError (α × List UInt8)

/-- Takes a number of the given width. -/
def decodeNumber : Nat → Decoder Nat
  | 0, bytes => .ok (0, bytes)
  | _ + 1, [] => .error .endOfInput
  | width + 1, byte :: bytes => do
    let (high, rest) ← decodeNumber width bytes
    return (byte.toNat + 256 * high, rest)

/-- Takes a text behind its length. -/
def decodeText : Decoder String := fun bytes => do
  let (length, bytes) ← decodeNumber 8 bytes
  if bytes.length < length then throw .textTooLong
  let (content, rest) := bytes.splitAt length
  match Text.ofUtf8? content, Text.Utf8Break.find? content with
  | some text, _ => return (text, rest)
  | none, place => throw (.invalidText (place.getD ⟨0, none⟩))

/-- The most entries a map may be said to have. It is set up for all of them at once, with 17 bytes
for a place, a power of two for the number of places, and an eighth of them free: two to the power
58 places are the most that can be addressed. -/
def mapLimit : Nat := 0x380000000000000

/-- Takes one thing after the other. -/
def decodeTimes {α : Type} (item : Decoder α) : Nat → Decoder (List α)
  | 0, bytes => .ok ([], bytes)
  | count + 1, bytes => do
    let (first, bytes) ← item bytes
    let (others, bytes) ← decodeTimes item count bytes
    return (first :: others, bytes)

mutual

/-- Takes a value of a shape. Values of named shapes are taken by `named`. -/
def decodeWith (named : TypeName → Decoder Value) : Shape → Decoder Value
  | .flag, bytes => do
    let (byte, bytes) ← decodeNumber 1 bytes
    match byte with
    | 0 => return (.flag false, bytes)
    | 1 => return (.flag true, bytes)
    | other => throw (.invalidFlag other)
  | .word, bytes => do
    let (number, bytes) ← decodeNumber 8 bytes
    return (.word number, bytes)
  | .int32, bytes => do
    let (number, bytes) ← decodeNumber 4 bytes
    return (.int32 (UInt32.ofNat number).toInt32, bytes)
  | .int64, bytes => do
    let (number, bytes) ← decodeNumber 8 bytes
    return (.int64 (UInt64.ofNat number).toInt64, bytes)
  | .text, bytes => do
    let (text, bytes) ← decodeText bytes
    return (.text text, bytes)
  | .optional item, bytes => do
    let (tag, bytes) ← decodeNumber 1 bytes
    match tag with
    | 0 => return (.absent, bytes)
    | 1 =>
      let (value, bytes) ← decodeWith named item bytes
      return (.present value, bytes)
    | other => throw (.invalidTag other)
  | .sequence item, bytes => do
    let (length, bytes) ← decodeNumber 8 bytes
    let (items, bytes) ← decodeTimes (decodeWith named item) length bytes
    return (.sequence items, bytes)
  | .mapping key value, bytes => do
    let (length, bytes) ← decodeNumber 8 bytes
    if mapLimit < length then throw (.mapTooLarge length)
    let entry : Decoder Value := fun bytes => do
      let (keyValue, bytes) ← decodeWith named key bytes
      let (entryValue, bytes) ← decodeWith named value bytes
      return (.record [keyValue, entryValue], bytes)
    let (entries, bytes) ← decodeTimes entry length bytes
    return (.sequence entries, bytes)
  | .record _ fields, bytes => do
    let (values, bytes) ← decodeFieldsWith named fields bytes
    return (.record values, bytes)
  | .choice _ variants, bytes => do
    let (index, bytes) ← decodeNumber 4 bytes
    match decodePayloadWith named variants index with
    | none => throw (.invalidVariant index variants.length)
    | some decoder =>
      let (payload, bytes) ← decoder bytes
      return (.variant index payload, bytes)
  | .named name, bytes => named name bytes

/-- Takes the fields of a record. -/
def decodeFieldsWith (named : TypeName → Decoder Value) :
    List (String × Shape) → Decoder (List Value)
  | [], bytes => .ok ([], bytes)
  | (_, shape) :: fields, bytes => do
    let (value, bytes) ← decodeWith named shape bytes
    let (values, bytes) ← decodeFieldsWith named fields bytes
    return (value :: values, bytes)

/-- What takes the payload of an alternative. -/
def decodePayloadWith (named : TypeName → Decoder Value) :
    List (String × List Shape) → Nat → Option (Decoder (List Value))
  | [], _ => none
  | (_, payload) :: _, 0 => some (decodeAllWith named payload)
  | _ :: variants, index + 1 => decodePayloadWith named variants index

/-- Takes values one after the other. -/
def decodeAllWith (named : TypeName → Decoder Value) : List Shape → Decoder (List Value)
  | [], bytes => .ok ([], bytes)
  | shape :: shapes, bytes => do
    let (value, bytes) ← decodeWith named shape bytes
    let (values, bytes) ← decodeAllWith named shapes bytes
    return (value :: values, bytes)

end

/-- Takes a value of a named shape nested at most so deep. Each level takes at least a byte. -/
def decodeNamed : Nat → TypeName → Decoder Value
  | 0, _, _ => .error .endOfInput
  | depth + 1, name, bytes => decodeWith (decodeNamed depth) name.shape bytes

/-- Takes a value of a shape off the front of the bytes. -/
def decode (shape : Shape) : Decoder Value := fun bytes =>
  decodeWith (decodeNamed (bytes.length + 1)) shape bytes

end TypeRecords.Wire.Binary
