/-!
What can be wrong with a JSON text, and where.

Owns the causes of errors with their texts, and errors with their place: the bytes that were left
when the error was noticed. An error about the contents of a list or an object is placed once the
end of that list or object was looked for.
-/

namespace TypeRecords.Wire.Json

/-- What is wrong with a JSON text. -/
inductive Cause where
  | endOfList
  | endOfObject
  | endOfText
  | endOfValue
  | expectedColon
  | expectedItemEnd
  | expectedFieldEnd
  | expectedIdentifier
  | expectedValue
  | expectedQuote
  | invalidEscape
  | invalidNumber
  | numberOutOfRange
  | invalidCodePoint
  | controlCharacter
  | keyNotText
  | keyNotNumber
  | loneSurrogate
  | endOfEscape
  | trailingComma
  | trailingCharacters
  | tooDeep
  | invalidType (found expected : String)
  | invalidValue (found expected : String)
  | invalidLength (length : Nat) (expected : String)
  | unknownVariant (name : String) (known : List String)
  | missingField (name : String)
  | duplicateField (name : String)
deriving DecidableEq, Repr

/-- Names of which one was expected. -/
def oneOf (names : List String) : String :=
  match names.map fun name => s!"`{name}`" with
  | [] => ", there are no variants"
  | [only] => ", expected " ++ only
  | [first, second] => s!", expected {first} or {second}"
  | several => ", expected one of " ++ ", ".intercalate several

def Cause.message : Cause → String
  | .endOfList => "EOF while parsing a list"
  | .endOfObject => "EOF while parsing an object"
  | .endOfText => "EOF while parsing a string"
  | .endOfValue => "EOF while parsing a value"
  | .expectedColon => "expected `:`"
  | .expectedItemEnd => "expected `,` or `]`"
  | .expectedFieldEnd => "expected `,` or `\x7d`"
  | .expectedIdentifier => "expected ident"
  | .expectedValue => "expected value"
  | .expectedQuote => "expected `\"`"
  | .invalidEscape => "invalid escape"
  | .invalidNumber => "invalid number"
  | .numberOutOfRange => "number out of range"
  | .invalidCodePoint => "invalid unicode code point"
  | .controlCharacter =>
    "control character (\\u0000-\\u001F) found while parsing a string"
  | .keyNotText => "key must be a string"
  | .keyNotNumber => "invalid value: expected key to be a number in quotes"
  | .loneSurrogate => "lone leading surrogate in hex escape"
  | .endOfEscape => "unexpected end of hex escape"
  | .trailingComma => "trailing comma"
  | .trailingCharacters => "trailing characters"
  | .tooDeep => "recursion limit exceeded"
  | .invalidType found expected => s!"invalid type: {found}, expected {expected}"
  | .invalidValue found expected => s!"invalid value: {found}, expected {expected}"
  | .invalidLength length expected => s!"invalid length {length}, expected {expected}"
  | .unknownVariant name known => s!"unknown variant `{name}`" ++ oneOf known
  | .missingField name => s!"missing field `{name}`"
  | .duplicateField name => s!"duplicate field `{name}`"

/-- An error with the bytes left at its place. -/
structure Error where
  cause : Cause
  rest : List UInt8
  /-- Whether the place is final. -/
  placed : Bool
deriving Repr

namespace Error

/-- Gives an error without a final place the place to which the given bytes are left. -/
def placeAt (rest : List UInt8) (error : Error) : Error :=
  if error.placed then error else { error with rest, placed := true }

/-- The number of the line in which some bytes end, and the number of bytes in it. -/
def position (bytes : List UInt8) : Nat × Nat :=
  bytes.foldl
    (fun (line, column) (byte : UInt8) =>
      if byte = 0x0a then (line + 1, 0) else (line, column + 1))
    (1, 0)

/-- The text of an error found in the given bytes. -/
def message (error : Error) (bytes : List UInt8) : String :=
  if error.placed then
    let (line, column) := position (bytes.take (bytes.length - error.rest.length))
    s!"{error.cause.message} at line {line} column {column}"
  else error.cause.message

end Error

/-- Takes something off the front of the bytes. -/
abbrev Reader (α : Type) := List UInt8 → Except Error (α × List UInt8)

/-- Fails at the place reached. -/
def failAt {α : Type} (cause : Cause) (rest : List UInt8) : Except Error α :=
  .error ⟨cause, rest, true⟩

/-- Fails behind the next byte, which is the one to blame. -/
def failBehind {α : Type} (cause : Cause) (rest : List UInt8) : Except Error α :=
  .error ⟨cause, rest.drop 1, true⟩

/-- Fails at a place that the surrounding list or object settles. -/
def failUnplaced {α : Type} (cause : Cause) (rest : List UInt8) : Except Error α :=
  .error ⟨cause, rest, false⟩

end TypeRecords.Wire.Json
