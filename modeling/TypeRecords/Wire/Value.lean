/-!
The data model of stored files.

Owns the values that files are made of, and the shapes that say which values belong where. A shape
gives the names of record fields and of the alternatives of a choice; values have them by position
alone. Recursive types refer to themselves by name.
-/

namespace TypeRecords.Wire

/-- A value to be stored. Words are unsigned and have 64 bits. -/
inductive Value where
  | flag (value : Bool)
  | word (number : Nat)
  | int32 (number : Int32)
  | int64 (number : Int64)
  | text (text : String)
  | absent
  | present (value : Value)
  /-- The items of a list, or the entries of a map as records of key and value. -/
  | sequence (items : List Value)
  | record (fields : List Value)
  /-- An alternative of a choice by position. -/
  | variant (index : Nat) (payload : List Value)
deriving Repr, Inhabited

/-- The names of recursive types. -/
inductive TypeName where
  | valueType
  | dataType
  | constant
deriving DecidableEq, Repr

/-- Which values belong somewhere. -/
inductive Shape where
  | flag
  | word
  | int32
  | int64
  | text
  | optional (item : Shape)
  | sequence (item : Shape)
  | mapping (key value : Shape)
  | record (typeName : String) (fields : List (String × Shape))
  | choice (typeName : String) (variants : List (String × List Shape))
  | named (name : TypeName)
deriving Inhabited

namespace TypeName

/-- The types a field may have. -/
def valueTypeVariants : List (String × List Shape) :=
  [("Bool", []), ("U8", []), ("I8", []), ("I16", []), ("U16", []), ("Char", []), ("I32", []),
    ("U32", []), ("I64", []), ("U64", []), ("F32", []), ("F64", []), ("USize", []),
    ("ISize", []), ("Pointer", [.named .valueType]), ("Object", [.word]), ("Any", [])]

/-- The storage types of static data. -/
def dataTypeVariants : List (String × List Shape) :=
  [("I32", []), ("I64", []), ("U16", []), ("Ptr", []),
    ("Array", [.named .dataType, .word]), ("Struct", [.sequence (.named .dataType)])]

/-- The constants of static data. -/
def constantVariants : List (String × List Shape) :=
  [("I32", [.int32]), ("I64", [.int64]), ("Null", []), ("GlobalAddr", [.word]),
    ("FunctionAddr", [.word]), ("Utf16", [.text]),
    ("Array", [.named .dataType, .sequence (.named .constant)]),
    ("Struct", [.sequence (.named .constant)]), ("Zero", [.named .dataType])]

/-- The shape behind a name. -/
def shape : TypeName → Shape
  | .valueType => .choice "Type" valueTypeVariants
  | .dataType => .choice "DataType" dataTypeVariants
  | .constant => .choice "Const" constantVariants

end TypeName

/-- The shape with a name at its top replaced by what is behind it. -/
def Shape.unfolded : Shape → Shape
  | .named name => name.shape
  | other => other

/-- Whether the value may be missing from a record. -/
def Shape.isOptional : Shape → Bool
  | .optional _ => true
  | _ => false

end TypeRecords.Wire
