import TypeRecords.Wire.Json.Token
import TypeRecords.Wire.Value

/-!
Reading values from JSON texts.

Owns the reading of a value by its shape. Records are objects, or lists of their fields in order;
unknown fields of an object are skipped, known ones come once, and only optional ones may be
missing. A map is an object whose keys are texts or numbers in quotes. An alternative of a choice
is its name, or an object with the name as its one field. Lists and objects nest to a fixed depth.
-/

namespace TypeRecords.Wire.Json

/-- Lists and objects nest less deep than this. -/
def depthLimit : Nat := 128

/-- Passes the blanks in front of a value, of which there must be something. -/
def toValue (bytes : List UInt8) : Except Error (List UInt8) :=
  let rest := skipBlanks bytes
  if rest.isEmpty then failBehind .endOfValue rest else .ok rest

/-! ## Lists and objects -/

/-- Opens a list or an object, unless too many are open. -/
def openNested (depth : Nat) (rest : List UInt8) : Except Error (List UInt8) :=
  if depth ≤ 1 then failBehind .tooDeep rest else .ok (rest.drop 1)

/-- Passes the end of a list. -/
def closeList (bytes : List UInt8) : Except Error (List UInt8) :=
  let rest := skipBlanks bytes
  if rest.isEmpty then failBehind .endOfList rest
  else if startsWith ']' rest then .ok (rest.drop 1)
  else if startsWith ',' rest then
    let rest := skipBlanks (rest.drop 1)
    failBehind (if startsWith ']' rest then .trailingComma else .trailingCharacters) rest
  else failBehind .trailingCharacters rest

/-- Where the search for the end of a list stops. -/
def listEndSought (bytes : List UInt8) : List UInt8 :=
  let rest := skipBlanks bytes
  if startsWith ']' rest then rest.drop 1
  else if startsWith ',' rest then skipBlanks (rest.drop 1)
  else rest

/-- Passes the end of an object. -/
def closeObject (bytes : List UInt8) : Except Error (List UInt8) :=
  let rest := skipBlanks bytes
  if rest.isEmpty then failBehind .endOfObject rest
  else if startsWith '\x7d' rest then .ok (rest.drop 1)
  else if startsWith ',' rest then failBehind .trailingComma rest
  else failBehind .trailingCharacters rest

/-- Where the search for the end of an object stops. -/
def objectEndSought (bytes : List UInt8) : List UInt8 :=
  let rest := skipBlanks bytes
  if startsWith '\x7d' rest then rest.drop 1 else rest

/-- Places the error of a content at the end that was sought behind it. -/
def settle {α : Type} (endSought : List UInt8 → List UInt8) (result : Except Error α) :
    Except Error α :=
  result.mapError fun error => error.placeAt (endSought error.rest)

/-- Takes a list with the given contents. -/
def readList {α : Type} (depth : Nat) (contents : Reader α) : Reader α := fun rest => do
  let rest ← openNested depth rest
  let (value, rest) ← settle listEndSought (contents rest)
  return (value, ← closeList rest)

/-- Takes an object with the given contents. -/
def readObject {α : Type} (depth : Nat) (contents : Reader α) : Reader α := fun rest => do
  let rest ← openNested depth rest
  let (value, rest) ← settle objectEndSought (contents rest)
  return (value, ← closeObject rest)

/-- Passes to the next item of a list, if there is one. -/
def nextItem (first : Bool) (bytes : List UInt8) : Except Error (Option (List UInt8)) :=
  let rest := skipBlanks bytes
  if rest.isEmpty then failBehind .endOfList rest
  else if startsWith ']' rest then .ok none
  else if first then .ok (some rest)
  else if startsWith ',' rest then
    let rest := skipBlanks (rest.drop 1)
    if rest.isEmpty then failBehind .endOfValue rest
    else if startsWith ']' rest then failBehind .trailingComma rest
    else .ok (some rest)
  else failBehind .expectedItemEnd rest

/-- Passes to the next key of an object, if there is one. -/
def nextKey (first : Bool) (bytes : List UInt8) : Except Error (Option (List UInt8)) :=
  let rest := skipBlanks bytes
  if rest.isEmpty then failBehind .endOfObject rest
  else if startsWith '\x7d' rest then .ok none
  else if first then
    if startsWith '"' rest then .ok (some rest) else failBehind .keyNotText rest
  else if startsWith ',' rest then
    let rest := skipBlanks (rest.drop 1)
    if rest.isEmpty then failBehind .endOfValue rest
    else if startsWith '"' rest then .ok (some rest)
    else if startsWith '\x7d' rest then failBehind .trailingComma rest
    else failBehind .keyNotText rest
  else failBehind .expectedFieldEnd rest

/-- Passes the colon behind a key. -/
def passColon (bytes : List UInt8) : Except Error (List UInt8) :=
  let rest := skipBlanks bytes
  if rest.isEmpty then failBehind .endOfObject rest
  else if startsWith ':' rest then .ok (rest.drop 1)
  else failBehind .expectedColon rest

/-- Takes all items of a list. Every item takes at least a byte, so the number of bytes bounds the
items. -/
def readItems (item : Reader Value) : Nat → Bool → Reader (List Value)
  | 0, _, rest => failBehind .endOfList rest
  | bound + 1, first, rest => do
    match ← nextItem first rest with
    | none => return ([], skipBlanks rest)
    | some rest =>
      let (value, rest) ← item rest
      let (others, rest) ← readItems item bound false rest
      return (value :: others, rest)

/-- Takes all entries of a map. -/
def readEntries (key value : Reader Value) : Nat → Bool → Reader (List Value)
  | 0, _, rest => failBehind .endOfObject rest
  | bound + 1, first, rest => do
    match ← nextKey first rest with
    | none => return ([], skipBlanks rest)
    | some rest =>
      let (keyRead, rest) ← key rest
      let rest ← passColon rest
      let (valueRead, rest) ← value rest
      let (others, rest) ← readEntries key value bound false rest
      return (.record [keyRead, valueRead] :: others, rest)

/-! ## Single values -/

/-- Takes a flag. -/
def readFlag : Reader Value := fun bytes => do
  let rest ← toValue bytes
  if startsWith 't' rest then
    return (.flag true, ← readIdentifier ['r', 'u', 'e'] (rest.drop 1))
  else if startsWith 'f' rest then
    return (.flag false, ← readIdentifier ['a', 'l', 's', 'e'] (rest.drop 1))
  else failType "a boolean" rest

/-- Takes an integer between the bounds. -/
def readInteger (expected : String) (low high : Int) : Reader Int := fun bytes => do
  let rest ← toValue bytes
  if startsWith '-' rest || startsWithDigit rest then
    let (number, rest) ← readNumber rest
    match number with
    | .natural value =>
      if (value : Int) ≤ high then return (value, rest)
      else failAt (.invalidValue number.describe expected) rest
    | .negative value =>
      if low ≤ -(value : Int) then return (-(value : Int), rest)
      else failAt (.invalidValue number.describe expected) rest
    | .float _ => failAt (.invalidType number.describe expected) rest
  else failType expected rest

/-- Takes a word. -/
def readWord : Reader Value := fun bytes => do
  let (value, rest) ← readInteger "usize" 0 0xffffffffffffffff bytes
  return (.word value.toNat, rest)

/-- Takes a text. -/
def readTextOf (expected : String) : Reader String := fun bytes => do
  let rest ← toValue bytes
  if startsWith '"' rest then readText (rest.drop 1) else failType expected rest

/-- Takes the key of a map, at its opening quote. -/
def readKey : Shape → Reader Value
  | .word, rest => do
    let rest := rest.drop 1
    if !startsWith '-' rest && !startsWithDigit rest then failAt .keyNotNumber rest
    else
      let (value, rest) ← readWord rest
      if startsWith '"' rest then return (value, rest.drop 1)
      else failBehind .expectedQuote rest
  | .text, rest => do
    let (text, rest) ← readText (rest.drop 1)
    return (.text text, rest)
  | _, rest => failBehind .keyNotText rest

/-- Takes the null that stands for an empty payload. -/
def readUnit : Reader (List Value) := fun bytes => do
  let rest ← toValue bytes
  if startsWith 'n' rest then return ([], ← readIdentifier ['u', 'l', 'l'] (rest.drop 1))
  else failType "unit" rest

/-! ## Records -/

/-- How a field of a record is read. -/
structure FieldReader where
  name : String
  optional : Bool
  read : Reader Value

/-- A record as messages expect it, with the number of its fields. -/
def countedElements (what : String) (count : Nat) : String :=
  s!"{what} with {count} element" ++ if count = 1 then "" else "s"

/-- Takes the fields of a record that is a list. -/
def readListedFields (expected : String) :
    List FieldReader → Nat → Bool → Reader (List Value)
  | [], _, _, rest => .ok ([], rest)
  | field :: fields, index, first, rest => do
    match ← nextItem first rest with
    | none => failUnplaced (.invalidLength index expected) (skipBlanks rest)
    | some rest =>
      let (value, rest) ← field.read rest
      let (values, rest) ← readListedFields expected fields (index + 1) false rest
      return (value :: values, rest)

/-- Takes the fields of a record that is an object, in any order, adding to those found before. -/
def readNamedFields (fields : List FieldReader) :
    Nat → Bool → List (Option Value) → Reader (List (Option Value))
  | 0, _, _, rest => failBehind .endOfObject rest
  | bound + 1, first, found, rest => do
    match ← nextKey first rest with
    | none => return (found, skipBlanks rest)
    | some rest =>
      let (name, rest) ← readText (rest.drop 1)
      match fields.zipIdx.find? fun field => field.1.name = name with
      | none =>
        let rest ← skipValue (← passColon rest)
        readNamedFields fields bound false found rest
      | some (field, index) =>
        if (found[index]?.join).isSome then failUnplaced (.duplicateField name) rest
        else
          let rest ← passColon rest
          let (value, rest) ← field.read rest
          readNamedFields fields bound false (found.set index (some value)) rest

/-- The values of all fields, of which only optional ones may be missing. -/
def completeFields (rest : List UInt8) :
    List FieldReader → List (Option Value) → Except Error (List Value)
  | [], _ => .ok []
  | field :: fields, found => do
    let value ←
      match found.head?.join with
      | some value => pure value
      | none =>
        if field.optional then pure .absent
        else failUnplaced (.missingField field.name) rest
    return value :: (← completeFields rest fields (found.drop 1))

/-- Takes a record. -/
def readRecord (typeName : String) (fields : List FieldReader) (depth : Nat) :
    Reader (List Value) := fun bytes => do
  let rest ← toValue bytes
  let expected := "struct " ++ typeName
  if startsWith '[' rest then
    readList depth (readListedFields (countedElements expected fields.length) fields 0 true) rest
  else if startsWith '\x7b' rest then
    readObject depth
      (fun rest => do
        let (found, rest) ← readNamedFields fields (rest.length + 1) true
          (fields.map fun _ => none) rest
        return (← completeFields rest fields found, rest))
      rest
  else failType expected rest

/-! ## Choices -/

/-- How the payload of an alternative is read. -/
structure VariantReader where
  name : String
  /-- The number of values in the payload. -/
  arity : Nat
  read : Reader (List Value)

/-- Passes to the name of an alternative inside an object. -/
def toVariantName (bytes : List UInt8) : Except Error (List UInt8) :=
  let rest := skipBlanks bytes
  if rest.isEmpty then failBehind .endOfObject rest
  else if startsWith '\x7d' rest then failBehind .expectedValue rest
  else if startsWith '"' rest then .ok rest
  else failBehind .keyNotText rest

/-- Takes the name of an alternative. -/
def readVariantName (variants : List VariantReader) : Reader (VariantReader × Nat) :=
  fun bytes => do
    let (name, rest) ← readTextOf "variant identifier" bytes
    match variants.zipIdx.find? fun variant => variant.1.name = name with
    | some found => return (found, rest)
    | none => failAt (.unknownVariant name (variants.map VariantReader.name)) rest

/-- Takes an alternative of a choice. -/
def readChoice (variants : List VariantReader) (depth : Nat) : Reader Value := fun bytes => do
  let rest ← toValue bytes
  if startsWith '\x7b' rest then
    let rest ← toVariantName (← openNested depth rest)
    let ((variant, index), rest) ← readVariantName variants rest
    let rest ← passColon rest
    let (payload, rest) ← variant.read rest
    let rest := skipBlanks rest
    if rest.isEmpty then failAt .endOfObject rest
    else if startsWith '\x7d' rest then return (.variant index payload, rest.drop 1)
    else failAt .expectedValue rest
  else if startsWith '"' rest then
    let ((variant, index), rest) ← readVariantName variants rest
    match variant.arity with
    | 0 => return (.variant index [], rest)
    | 1 => failUnplaced (.invalidType "unit variant" "newtype variant") rest
    | _ => failUnplaced (.invalidType "unit variant" "tuple variant") rest
  else failBehind .expectedValue rest

/-! ## Values of a shape -/

mutual

/-- Takes a value of a shape. Values of named shapes are taken by `named`. -/
def readWith (named : TypeName → Nat → Reader Value) : Shape → Nat → Reader Value
  | .flag, _ => readFlag
  | .word, _ => readWord
  | .int32, _ => fun bytes => do
    let (value, rest) ← readInteger "i32" (-0x80000000) 0x7fffffff bytes
    return (.int32 (Int32.ofInt value), rest)
  | .int64, _ => fun bytes => do
    let (value, rest) ← readInteger "i64" (-0x8000000000000000) 0x7fffffffffffffff bytes
    return (.int64 (Int64.ofInt value), rest)
  | .text, _ => fun bytes => do
    let (text, rest) ← readTextOf "a string" bytes
    return (.text text, rest)
  | .optional item, depth => fun bytes => do
    let rest := skipBlanks bytes
    if startsWith 'n' rest then
      return (.absent, ← readIdentifier ['u', 'l', 'l'] (rest.drop 1))
    else
      let (value, rest) ← readWith named item depth rest
      return (.present value, rest)
  | .sequence item, depth => fun bytes => do
    let rest ← toValue bytes
    if startsWith '[' rest then
      let (items, rest) ← readList depth
        (readItems (readWith named item (depth - 1)) (rest.length + 1) true) rest
      return (.sequence items, rest)
    else failType "a sequence" rest
  | .mapping key value, depth => fun bytes => do
    let rest ← toValue bytes
    if startsWith '\x7b' rest then
      let (entries, rest) ← readObject depth
        (readEntries (readKey key) (readWith named value (depth - 1)) (rest.length + 1) true) rest
      return (.sequence entries, rest)
    else failType "a map" rest
  | .record typeName fields, depth => fun bytes => do
    let (values, rest) ← readRecord typeName (fieldReaders named fields (depth - 1)) depth bytes
    return (.record values, rest)
  | .choice typeName variants, depth =>
    readChoice (variantReaders named typeName variants (depth - 1)) depth
  | .named name, depth => named name depth

/-- How the fields of a record are read. -/
def fieldReaders (named : TypeName → Nat → Reader Value) :
    List (String × Shape) → Nat → List FieldReader
  | [], _ => []
  | (name, shape) :: fields, depth =>
    ⟨name, shape.isOptional, readWith named shape depth⟩ :: fieldReaders named fields depth

/-- How the payloads of the alternatives of a choice are read: nothing as null, one value as
itself, and several as a list. -/
def variantReaders (named : TypeName → Nat → Reader Value) (typeName : String) :
    List (String × List Shape) → Nat → List VariantReader
  | [], _ => []
  | (name, payload) :: variants, depth =>
    let inner := if payload.length ≤ 1 then depth else depth - 1
    let readers := payloadReaders named payload inner
    let read : Reader (List Value) :=
      match readers with
      | [] => readUnit
      | [only] => fun bytes => do
        let (value, rest) ← only.read bytes
        return ([value], rest)
      | several => fun bytes => do
        let expected :=
          countedElements s!"tuple variant {typeName}::{name}" several.length
        let rest ← toValue bytes
        if startsWith '[' rest then
          readList depth (readListedFields expected several 0 true) rest
        else failType expected rest
    ⟨name, payload.length, read⟩ :: variantReaders named typeName variants depth

/-- How the values of a payload are read. -/
def payloadReaders (named : TypeName → Nat → Reader Value) :
    List Shape → Nat → List FieldReader
  | [], _ => []
  | shape :: shapes, depth =>
    ⟨"", false, readWith named shape depth⟩ :: payloadReaders named shapes depth

end

/-- Takes a value of a named shape nested at most so deep. -/
def readNamed : Nat → TypeName → Nat → Reader Value
  | 0, _, _, bytes => failBehind .tooDeep bytes
  | bound + 1, name, depth, bytes => readWith (readNamed bound) name.shape depth bytes

/-- Reads a whole text as a value of a shape. -/
def read (shape : Shape) (bytes : List UInt8) : Except Error Value := do
  let (value, rest) ← readWith (readNamed depthLimit) shape depthLimit bytes
  let rest := skipBlanks rest
  if rest.isEmpty then return value else failBehind .trailingCharacters rest

end TypeRecords.Wire.Json
