import TypeRecords.CSource.Type
import TypeRecords.Segment.Basic

/-!
Expressions of static initializers in C.
-/

namespace TypeRecords.CSource

/-- What a global is called in C. Exported globals keep the symbol they are exported as. -/
inductive GlobalName where
  | number (id : GlobalId)
  | symbol (text : String)
deriving DecidableEq, Repr

namespace GlobalName

/-- The name of a global of a segment. -/
def of (segment : Segment) (id : GlobalId) : GlobalName :=
  match segment.get? id with
  | some global => if global.isExported then .symbol global.name else .number id
  | none => .number id

def display : GlobalName → String
  | .number id => s!"Global_{id.number}"
  | .symbol text => text

end GlobalName

/-- What a function is called in C. -/
def functionName (id : FunctionId) : String := s!"Function_{id.number}"

/-- A constant expression. -/
inductive Expression where
  | integer (value : Int)
  | null
  | global (name : GlobalName)
  | function (id : FunctionId)
  | addressOf (expression : Expression)
  | cast (expression : Expression) (type : CType)
  /-- The initializer of an array or a struct. -/
  | list (items : List Expression)
deriving Repr, Inhabited

/-- An integer as a literal of a type wide enough for it. The least 64-bit integer has no literal
and goes by its name. -/
def writeInteger (value : Int) : String :=
  if value = -0x8000000000000000 then "INT64_MIN"
  else if value < -0x80000000 ∨ 0x80000000 ≤ value then s!"INT64_C({value})"
  else toString value

namespace Expression

/-- The value of a storage type whose bytes are all zero. -/
def zero : DataType → Expression
  | .ptr => .null
  | .i32 | .i64 | .u16 => .integer 0
  | .array .. | .struct _ => .list [.integer 0]

mutual

def display : Expression → String
  | .integer value => writeInteger value
  | .null => "NULL"
  | .global name => name.display
  | .function id => functionName id
  | .addressOf expression => "&" ++ display expression
  | .cast expression type => s!"(({type.typeName}) {display expression})"
  | .list [] => "\x7b\x7d"
  | .list items => "\x7b " ++ ", ".intercalate (displayAll items) ++ " \x7d"

def displayAll : List Expression → List String
  | [] => []
  | item :: rest => display item :: displayAll rest

end

end Expression

end TypeRecords.CSource
