import TypeRecords.Decimal.Shortest
import TypeRecords.Text.Quoted
import TypeRecords.Text.Utf8
import TypeRecords.Wire.Json.Error

/-!
The words of a JSON text.

Owns the reading of blanks, identifiers, numbers and texts, and the skipping of values nobody asked
for. Numbers are words or negative integers where they fit 64 bits and floating-point numbers
otherwise; skipped values are not looked at more closely than their extent demands.
-/

namespace TypeRecords.Wire.Json

/-- The byte of an ASCII character. -/
def ascii (character : Char) : UInt8 := UInt8.ofNat character.toNat

/-- Whether the next byte is the given character. -/
def startsWith (character : Char) (rest : List UInt8) : Bool :=
  rest.head? = some (ascii character)

def isDigit (byte : UInt8) : Bool := ascii '0' ≤ byte && byte ≤ ascii '9'

/-- The number a digit stands for. -/
def digitValue (byte : UInt8) : Nat := byte.toNat - 48

/-- Whether the next byte is a digit. -/
def startsWithDigit (rest : List UInt8) : Bool := rest.head?.any isDigit

/-- Drops the blanks in front. -/
def skipBlanks (bytes : List UInt8) : List UInt8 :=
  bytes.dropWhile fun byte => byte = 0x20 || byte = 0x0a || byte = 0x09 || byte = 0x0d

/-- Takes the rest of an identifier. -/
def readIdentifier : List Char → List UInt8 → Except Error (List UInt8)
  | [], rest => .ok rest
  | _ :: _, [] => failAt .endOfValue []
  | expected :: others, byte :: rest =>
    if byte = ascii expected then readIdentifier others rest
    else failAt .expectedIdentifier rest

/-! ## Numbers -/

/-- A number as read. -/
inductive Number where
  | natural (value : Nat)
  /-- The negative of the value. -/
  | negative (value : Nat)
  | float (value : Float)

/-- A number as messages mention it. -/
def Number.describe : Number → String
  | .natural value => s!"integer `{value}`"
  | .negative value => s!"integer `-{value}`"
  | .float value => s!"floating point `{Decimal.ofFloat value}`"

/-- A significand that no further digit fits into. -/
def isFull (significand : Nat) (digit : Nat) : Bool :=
  0x10000000000000000 ≤ significand * 10 + digit

/-- Multiplies by a power of ten. Below the range of floating-point numbers the factor is applied
in parts. -/
def scale : Nat → Float → Int → Option Float
  | 0, _, _ => none
  | bound + 1, value, exponent =>
    if exponent.natAbs ≤ 308 then
      let power := Float.ofScientific 1 false exponent.natAbs
      if 0 ≤ exponent then
        let product := value * power
        if product.isInf then none else some product
      else some (value / power)
    else if value == 0.0 then some value
    else if 0 ≤ exponent then none
    else scale bound (value / 1e308) (exponent + 308)

/-- The number with a sign, a significand and a power of ten. -/
def makeFloat (positive : Bool) (significand : Nat) (exponent : Int) : Reader Number :=
  fun rest =>
    match scale (exponent.natAbs + 1) (UInt64.ofNat significand).toFloat exponent with
    | some value => .ok (.float (if positive then value else -value), rest)
    | none => failAt .numberOutOfRange rest

/-- A number of digits with a sign. -/
def withSign (positive : Bool) (value : Nat) : Int := if positive then value else -(value : Int)

/-- Takes the digits of an exponent behind its sign, up to the range of 32-bit integers. -/
def readExponentDigits (positive positiveExponent : Bool) (significand : Nat) (start : Int) :
    Nat → Reader Number
  | value, [] =>
    makeFloat positive significand (start + withSign positiveExponent value) []
  | value, byte :: rest =>
    if isDigit byte then
      let longer := value * 10 + digitValue byte
      if longer < 0x80000000 then
        readExponentDigits positive positiveExponent significand start longer rest
      else if significand ≠ 0 ∧ positiveExponent then failAt .numberOutOfRange rest
      else .ok (.float (if positive then 0.0 else -0.0), rest.dropWhile isDigit)
    else
      makeFloat positive significand (start + withSign positiveExponent value) (byte :: rest)

/-- Takes an exponent behind its letter. -/
def readExponent (positive : Bool) (significand : Nat) (start : Int) : Reader Number :=
  fun rest =>
    let positiveExponent := !startsWith '-' rest
    let rest := if startsWith '+' rest || startsWith '-' rest then rest.drop 1 else rest
    match rest with
    | [] => failAt .endOfValue []
    | byte :: others =>
      if isDigit byte then
        readExponentDigits positive positiveExponent significand start (digitValue byte) others
      else failAt .invalidNumber others

/-- Goes on with an exponent, if there is one. -/
def readExponentIfAny (positive : Bool) (significand : Nat) (exponent : Int) : Reader Number :=
  fun rest =>
    if startsWith 'e' rest || startsWith 'E' rest then
      readExponent positive significand exponent (rest.drop 1)
    else makeFloat positive significand exponent rest

/-- Takes the digits behind the point. Digits that do not fit the significand are dropped. -/
def readFraction (positive : Bool) (start : Int) : Nat → Nat → Reader Number
  | significand, count, [] =>
    if count = 0 then failBehind .endOfValue []
    else readExponentIfAny positive significand (start - count) []
  | significand, count, byte :: rest =>
    if isDigit byte then
      if isFull significand (digitValue byte) then
        readExponentIfAny positive significand (start - count) (rest.dropWhile isDigit)
      else readFraction positive start (significand * 10 + digitValue byte) (count + 1) rest
    else if count = 0 then failBehind .invalidNumber (byte :: rest)
    else readExponentIfAny positive significand (start - count) (byte :: rest)

/-- Goes on with a fraction and an exponent, where the significand is followed by more digits than
fit into it. -/
def readLongNumber (positive : Bool) (significand : Nat) : Reader Number := fun rest =>
  let behind := rest.dropWhile isDigit
  let exponent : Int := rest.length - behind.length
  if startsWith '.' behind then readFraction positive exponent significand 0 (behind.drop 1)
  else readExponentIfAny positive significand exponent behind

/-- Goes on behind the digits of the integer part. -/
def readNumberEnd (positive : Bool) (significand : Nat) : Reader Number := fun rest =>
  if startsWith '.' rest then readFraction positive 0 significand 0 (rest.drop 1)
  else if startsWith 'e' rest || startsWith 'E' rest then
    readExponent positive significand 0 (rest.drop 1)
  else if positive then .ok (.natural significand, rest)
  else if significand = 0 ∨ 0x8000000000000000 < significand then
    .ok (.float (-(UInt64.ofNat significand).toFloat), rest)
  else .ok (.negative significand, rest)

/-- Takes the digits of the integer part. -/
def readDigits (positive : Bool) : Nat → Reader Number
  | significand, [] => readNumberEnd positive significand []
  | significand, byte :: rest =>
    if isDigit byte then
      if isFull significand (digitValue byte) then
        readLongNumber positive significand (byte :: rest)
      else readDigits positive (significand * 10 + digitValue byte) rest
    else readNumberEnd positive significand (byte :: rest)

/-- Takes a number behind its sign. -/
def readUnsigned (positive : Bool) : Reader Number
  | [] => failAt .endOfValue []
  | byte :: rest =>
    if byte = ascii '0' then
      if startsWithDigit rest then failBehind .invalidNumber rest
      else readNumberEnd positive 0 rest
    else if isDigit byte then readDigits positive (digitValue byte) rest
    else failAt .invalidNumber rest

/-- Takes a number, which starts with a digit or a minus sign. -/
def readNumber : Reader Number := fun rest =>
  if startsWith '-' rest then readUnsigned false (rest.drop 1) else readUnsigned true rest

/-! ## Texts -/

/-- The number a hexadecimal digit stands for. -/
def hexValue? (byte : UInt8) : Option Nat :=
  let code := byte.toNat
  if 48 ≤ code ∧ code ≤ 57 then some (code - 48)
  else if 97 ≤ code ∧ code ≤ 102 then some (code - 87)
  else if 65 ≤ code ∧ code ≤ 70 then some (code - 55)
  else none

/-- The number four hexadecimal digits stand for. -/
def hexValueOfFour? (a b c d : UInt8) : Option Nat := do
  return ((← hexValue? a) * 16 + (← hexValue? b)) * 256 + (← hexValue? c) * 16 + (← hexValue? d)

/-- Takes the four digits of an escape by number. -/
def readHexDigits : Reader Nat
  | a :: b :: c :: d :: rest =>
    match hexValueOfFour? a b c d with
    | some value => .ok (value, rest)
    | none => failAt .invalidEscape rest
  | _ => failAt .endOfText []

/-- Takes the second half of a pair of surrogates with its escape. -/
def readLowSurrogate : Reader Nat := fun rest =>
  match rest with
  | [] => failAt .endOfText []
  | backslash :: rest =>
    if backslash ≠ ascii '\\' then failAt .endOfEscape rest
    else
      match rest with
      | [] => failAt .endOfText []
      | letter :: rest =>
        if letter ≠ ascii 'u' then failAt .endOfEscape rest else readHexDigits rest

/-- Takes an escape by number behind its letter: a character of the basic plane, or a pair of
surrogates. -/
def readEscapedCharacter : Reader Char := fun rest => do
  let (high, rest) ← readHexDigits rest
  if 0xdc00 ≤ high ∧ high ≤ 0xdfff then failAt .loneSurrogate rest
  else if high < 0xd800 ∨ 0xdbff < high then return (Char.ofNat high, rest)
  else
    let (low, rest) ← readLowSurrogate rest
    if low < 0xdc00 ∨ 0xdfff < low then failAt .loneSurrogate rest
    else return (Char.ofNat (0x10000 + (high - 0xd800) * 0x400 + (low - 0xdc00)), rest)

/-- The character an escape by letter stands for. -/
def escapedByLetter? (letter : UInt8) : Option Char :=
  [('"', '"'), ('\\', '\\'), ('/', '/'), ('b', '\x08'), ('f', '\x0c'), ('n', '\n'),
      ('r', '\r'), ('t', '\t')].findSome? fun (name, character) =>
    if letter = ascii name then some character else none

/-- Takes an escape behind its backslash. -/
def readEscape : Reader (List UInt8)
  | [] => failAt .endOfText []
  | letter :: rest =>
    match escapedByLetter? letter with
    | some character => .ok ([ascii character], rest)
    | none =>
      if letter = ascii 'u' then do
        let (character, rest) ← readEscapedCharacter rest
        return (Text.utf8 (String.singleton character), rest)
      else failAt .invalidEscape rest

/-- Takes the bytes of a text up to its closing quote. Every step takes at least a byte, so the
number of bytes bounds the steps. -/
def readTextBytes : Nat → Reader (List UInt8)
  | 0, _ => failAt .endOfText []
  | _ + 1, [] => failAt .endOfText []
  | bound + 1, byte :: rest =>
    if byte = ascii '"' then .ok ([], rest)
    else if byte = ascii '\\' then do
      let (escaped, rest) ← readEscape rest
      let (others, rest) ← readTextBytes bound rest
      return (escaped ++ others, rest)
    else if byte < 0x20 then failAt .controlCharacter rest
    else do
      let (others, rest) ← readTextBytes bound rest
      return (byte :: others, rest)

/-- Takes a text behind its opening quote. If its bytes are not those of characters, the place of
the error is as many bytes in front of the end of the text as there are from the first one that
does not belong to a character. Escapes count as the bytes they stand for. -/
def readText : Reader String := fun start => do
  let (content, rest) ← readTextBytes (start.length + 1) start
  match Text.ofUtf8? content with
  | some text => return (text, rest)
  | none =>
    let validUpTo := (Text.Utf8Break.find? content).elim 0 Text.Utf8Break.validUpTo
    let taken := start.length - rest.length
    failAt .invalidCodePoint (start.drop (taken - (content.length - validUpTo)))

/-! ## Values of the wrong type -/

/-- Fails because a value is not of the expected type. Words are read to be mentioned; the value
must be one at all. -/
def failType {α : Type} (expected : String) (rest : List UInt8) : Except Error α :=
  match rest with
  | [] => failBehind .expectedValue []
  | byte :: others =>
    if byte = ascii 'n' then do
      let rest ← readIdentifier ['u', 'l', 'l'] others
      failAt (.invalidType "null" expected) rest
    else if byte = ascii 't' then do
      let rest ← readIdentifier ['r', 'u', 'e'] others
      failAt (.invalidType "boolean `true`" expected) rest
    else if byte = ascii 'f' then do
      let rest ← readIdentifier ['a', 'l', 's', 'e'] others
      failAt (.invalidType "boolean `false`" expected) rest
    else if byte = ascii '-' || isDigit byte then do
      let (number, rest) ← readNumber rest
      failAt (.invalidType number.describe expected) rest
    else if byte = ascii '"' then do
      let (text, rest) ← readText others
      failAt (.invalidType ("string " ++ Text.quoted text) expected) rest
    else if byte = ascii '[' then failAt (.invalidType "sequence" expected) rest
    else if byte = ascii '\x7b' then failAt (.invalidType "map" expected) rest
    else failBehind .expectedValue rest

/-! ## Skipping -/

/-- Skips an exponent behind its letter. -/
def skipExponent (rest : List UInt8) : Except Error (List UInt8) :=
  let rest := if startsWith '+' rest || startsWith '-' rest then rest.drop 1 else rest
  if startsWithDigit rest then .ok (rest.dropWhile isDigit)
  else failAt .invalidNumber (rest.drop 1)

/-- Skips an exponent, if there is one. -/
def skipExponentIfAny (rest : List UInt8) : Except Error (List UInt8) :=
  if startsWith 'e' rest || startsWith 'E' rest then skipExponent (rest.drop 1) else .ok rest

/-- Skips a number behind its sign. -/
def skipUnsigned (rest : List UInt8) : Except Error (List UInt8) := do
  let behind ←
    match rest with
    | [] => failAt .invalidNumber []
    | byte :: others =>
      if byte = ascii '0' then
        if startsWithDigit others then failBehind .invalidNumber others else pure others
      else if isDigit byte then pure (others.dropWhile isDigit)
      else failAt .invalidNumber others
  if startsWith '.' behind then
    let fraction := behind.drop 1
    if startsWithDigit fraction then skipExponentIfAny (fraction.dropWhile isDigit)
    else failBehind .invalidNumber fraction
  else skipExponentIfAny behind

/-- Skips an escape behind its backslash. -/
def skipEscape : List UInt8 → Except Error (List UInt8)
  | [] => failAt .endOfText []
  | letter :: rest =>
    if (escapedByLetter? letter).isSome then .ok rest
    else if letter = ascii 'u' then (readHexDigits rest).map Prod.snd
    else failAt .invalidEscape rest

/-- Skips a text up to its closing quote. -/
def skipTextBytes : Nat → List UInt8 → Except Error (List UInt8)
  | 0, _ => failAt .endOfText []
  | _ + 1, [] => failAt .endOfText []
  | bound + 1, byte :: rest =>
    if byte = ascii '"' then .ok rest
    else if byte = ascii '\\' then do
      let rest ← skipEscape rest
      skipTextBytes bound rest
    else if byte < 0x20 then failAt .controlCharacter (byte :: rest)
    else skipTextBytes bound rest

/-- Skips a text behind its opening quote. -/
def skipText (rest : List UInt8) : Except Error (List UInt8) :=
  skipTextBytes (rest.length + 1) rest

/-- A list or an object around a skipped value. -/
inductive Frame where
  | list
  | object
deriving DecidableEq, Repr

namespace Frame

def unfinished : Frame → Cause
  | .list => .endOfList
  | .object => .endOfObject

def expectedEnd : Frame → Cause
  | .list => .expectedItemEnd
  | .object => .expectedFieldEnd

def closing : Frame → Char
  | .list => ']'
  | .object => '\x7d'

end Frame

/-- Skips the key of a field and the colon behind it. -/
def skipKey (rest : List UInt8) : Except Error (List UInt8) := do
  let rest := skipBlanks rest
  if rest.isEmpty then failBehind .endOfObject rest
  else if !startsWith '"' rest then failBehind .keyNotText rest
  else
    let rest := skipBlanks (← skipText (rest.drop 1))
    if rest.isEmpty then failBehind .endOfObject rest
    else if !startsWith ':' rest then failBehind .expectedColon rest
    else return rest.drop 1

mutual

/-- Skips a value inside the given frames, and everything up to the end of the outermost. Every
step takes at least a byte, so the number of bytes bounds the steps. -/
def skipValueWithin : Nat → List Frame → List UInt8 → Except Error (List UInt8)
  | 0, _, rest => failBehind .endOfValue rest
  | bound + 1, frames, rest => do
    let rest := skipBlanks rest
    match rest with
    | [] => failBehind .endOfValue []
    | byte :: others =>
      if byte = ascii 'n' then
        skipBehindValue bound frames (← readIdentifier ['u', 'l', 'l'] others)
      else if byte = ascii 't' then
        skipBehindValue bound frames (← readIdentifier ['r', 'u', 'e'] others)
      else if byte = ascii 'f' then
        skipBehindValue bound frames (← readIdentifier ['a', 'l', 's', 'e'] others)
      else if byte = ascii '-' then skipBehindValue bound frames (← skipUnsigned others)
      else if isDigit byte then skipBehindValue bound frames (← skipUnsigned rest)
      else if byte = ascii '"' then skipBehindValue bound frames (← skipText others)
      else if byte = ascii '[' then skipFirst bound .list frames others
      else if byte = ascii '\x7b' then skipFirst bound .object frames others
      else failBehind .expectedValue rest

/-- Goes on behind the opening of a list or an object. -/
def skipFirst : Nat → Frame → List Frame → List UInt8 → Except Error (List UInt8)
  | 0, _, _, rest => failBehind .endOfValue rest
  | bound + 1, frame, frames, rest => do
    let rest := skipBlanks rest
    if rest.isEmpty then failBehind frame.unfinished rest
    else if startsWith frame.closing rest then skipBehindValue bound frames (rest.drop 1)
    else
      let rest ← if frame = .object then skipKey rest else pure rest
      skipValueWithin bound (frame :: frames) rest

/-- Goes on behind a value inside the given frames. -/
def skipBehindValue : Nat → List Frame → List UInt8 → Except Error (List UInt8)
  | _, [], rest => .ok rest
  | 0, _, rest => failBehind .endOfValue rest
  | bound + 1, frame :: frames, rest => do
    let rest := skipBlanks rest
    if rest.isEmpty then failBehind frame.unfinished rest
    else if startsWith ',' rest then
      let rest ← if frame = .object then skipKey (rest.drop 1) else pure (rest.drop 1)
      skipValueWithin bound (frame :: frames) rest
    else if startsWith frame.closing rest then skipBehindValue bound frames (rest.drop 1)
    else failBehind frame.expectedEnd rest

end

/-- Skips a value. -/
def skipValue (rest : List UInt8) : Except Error (List UInt8) :=
  skipValueWithin (2 * rest.length + 2) [] rest

end TypeRecords.Wire.Json
