import TypeRecords.Identifier
import TypeRecords.Text.Quoted
import TypeRecords.Text.Utf16

/-!
Constants and their storage types.

Owns the storage types of static data, the constants that initialize it, the type of a constant,
and the written form of both. A written constant names globals and functions as a `ReferenceNames`
value says.
-/

namespace TypeRecords

/-- The storage type of a static data item. -/
inductive DataType where
  | i32
  | i64
  | u16
  | ptr
  | array (element : DataType) (length : Nat)
  | struct (members : List DataType)
deriving Repr, Inhabited

namespace DataType

mutual

def display : DataType → String
  | .i32 => "i32"
  | .i64 => "i64"
  | .u16 => "u16"
  | .ptr => "ptr"
  | .array element length => s!"[{display element}; {length}]"
  | .struct members => "\x7b" ++ ", ".intercalate (displayAll members) ++ "\x7d"

def displayAll : List DataType → List String
  | [] => []
  | member :: rest => display member :: displayAll rest

end

end DataType

/-- The initial value of a static data item. -/
inductive Constant where
  | i32 (value : Int32)
  | i64 (value : Int64)
  | null
  | globalAddress (id : GlobalId)
  | functionAddress (id : FunctionId)
  /-- The UTF-16 code units of a text, without a terminator. -/
  | utf16 (text : String)
  | array (element : DataType) (items : List Constant)
  | struct (members : List Constant)
  /-- The value of a type whose bytes are all zero. -/
  | zero (type : DataType)
deriving Repr, Inhabited

/-- How a written constant names what it refers to. -/
structure ReferenceNames where
  ofGlobal : GlobalId → String
  ofFunction : FunctionId → String

/-- Names by number alone. -/
def ReferenceNames.numbers : ReferenceNames where
  ofGlobal := GlobalId.display
  ofFunction id := "<" ++ id.display ++ ">"

namespace Constant

/-- The address of a global, or null. -/
def globalAddressOrNull : Option GlobalId → Constant
  | some id => .globalAddress id
  | none => .null

/-- The address of a function, or null. -/
def functionAddressOrNull : Option FunctionId → Constant
  | some id => .functionAddress id
  | none => .null

def isNull : Constant → Bool
  | .null => true
  | _ => false

mutual

/-- The storage type of a constant. -/
def type : Constant → DataType
  | .i32 _ => .i32
  | .i64 _ => .i64
  | .null | .globalAddress _ | .functionAddress _ => .ptr
  | .utf16 text => .array .u16 (Text.utf16Units text).length
  | .array element items => .array element items.length
  | .struct members => .struct (types members)
  | .zero type => type

/-- The storage types of constants, in order. -/
def types : List Constant → List DataType
  | [] => []
  | member :: rest => type member :: types rest

end

mutual

/-- The written form of a constant. -/
def write (names : ReferenceNames) : Constant → String
  | .i32 value => toString value
  | .i64 value => toString value
  | .null => "null"
  | .globalAddress id => "&" ++ names.ofGlobal id
  | .functionAddress id => "&" ++ names.ofFunction id
  | .utf16 text => "u" ++ Text.quoted text
  | .array _ items => "[" ++ ", ".intercalate (writeAll names items) ++ "]"
  | .struct members => "\x7b" ++ ", ".intercalate (writeAll names members) ++ "\x7d"
  | .zero type => "zeroinit " ++ type.display

def writeAll (names : ReferenceNames) : List Constant → List String
  | [] => []
  | item :: rest => write names item :: writeAll names rest

end

mutual

/-- The functions whose addresses occur in a constant, from left to right. -/
def functions : Constant → List FunctionId
  | .functionAddress id => [id]
  | .array _ items => functionsOfAll items
  | .struct members => functionsOfAll members
  | _ => []

def functionsOfAll : List Constant → List FunctionId
  | [] => []
  | item :: rest => functions item ++ functionsOfAll rest

end

end Constant

end TypeRecords
