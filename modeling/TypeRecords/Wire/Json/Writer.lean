import TypeRecords.Wire.Value

/-!
Writing values as JSON texts.

The text is compact. Records are objects with all their fields in order, and an alternative without
payload is its name.
-/

namespace TypeRecords.Wire.Json

/-- A character as it stands between quotes. -/
def escapedCharacter (character : Char) : List Char :=
  match character with
  | '"' => ['\\', '"']
  | '\\' => ['\\', '\\']
  | '\n' => ['\\', 'n']
  | '\r' => ['\\', 'r']
  | '\t' => ['\\', 't']
  | '\x08' => ['\\', 'b']
  | '\x0c' => ['\\', 'f']
  | other =>
    if other < ' ' then
      ['\\', 'u', '0', '0', Nat.digitChar (other.toNat / 16), Nat.digitChar (other.toNat % 16)]
    else [other]

/-- A text between quotes. -/
def writeText (text : String) : String :=
  String.ofList ('"' :: (text.toList.flatMap escapedCharacter ++ ['"']))

/-- The shape of the items of a list or of an optional value. -/
def itemShape (shape : Shape) : Shape :=
  match shape.unfolded with
  | .optional item => item
  | .sequence item => item
  | _ => .flag

/-- The names and shapes of the fields of a record. -/
def fieldShapes (shape : Shape) : List (String × Shape) :=
  match shape.unfolded with
  | .record _ fields => fields
  | _ => []

/-- The name and the payload of an alternative. -/
def variantShape (shape : Shape) (index : Nat) : String × List Shape :=
  match shape.unfolded with
  | .choice _ variants => (variants[index]?).getD ("", [])
  | _ => ("", [])

/-- The shapes of keys and values of a map. -/
def entryShapes? (shape : Shape) : Option (Shape × Shape) :=
  match shape.unfolded with
  | .mapping key value => some (key, value)
  | _ => none

/-- Joins written parts between two brackets. -/
def bracketed (opening closing : String) (parts : List String) : String :=
  opening ++ ",".intercalate parts ++ closing

/-- A number as the key of a map, which stands between quotes; a text has its own. -/
def writeKey : Value → String
  | .word number => writeText (toString number)
  | .text text => writeText text
  | _ => writeText ""

mutual

/-- The text of a value of a shape. -/
def write (shape : Shape) : Value → String
  | .flag value => if value then "true" else "false"
  | .word number => toString number
  | .int32 number => toString number
  | .int64 number => toString number
  | .text text => writeText text
  | .absent => "null"
  | .present value => write (itemShape shape) value
  | .sequence items =>
    match entryShapes? shape with
    | some (_, value) => bracketed "\x7b" "\x7d" (writeEntries value items)
    | none => bracketed "[" "]" (writeItems (itemShape shape) items)
  | .record fields => bracketed "\x7b" "\x7d" (writeFields (fieldShapes shape) fields)
  | .variant index payload =>
    let (name, shapes) := variantShape shape index
    match payload with
    | [] => writeText name
    | [value] => "\x7b" ++ writeText name ++ ":" ++ write (shapes.headD .flag) value ++ "\x7d"
    | values =>
      "\x7b" ++ writeText name ++ ":" ++ bracketed "[" "]" (writePayload shapes values) ++ "\x7d"

/-- The items of a list. -/
def writeItems (shape : Shape) : List Value → List String
  | [] => []
  | item :: rest => write shape item :: writeItems shape rest

/-- The fields of a record behind their names. -/
def writeFields : List (String × Shape) → List Value → List String
  | (name, shape) :: fields, value :: values =>
    (writeText name ++ ":" ++ write shape value) :: writeFields fields values
  | _, _ => []

/-- The values of a payload. -/
def writePayload : List Shape → List Value → List String
  | shape :: shapes, value :: values => write shape value :: writePayload shapes values
  | _, _ => []

/-- The entries of a map. -/
def writeEntries (shape : Shape) : List Value → List String
  | .record [key, value] :: rest =>
    (writeKey key ++ ":" ++ write shape value) :: writeEntries shape rest
  | _ => []

end

end TypeRecords.Wire.Json
