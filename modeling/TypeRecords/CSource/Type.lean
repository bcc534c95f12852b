import TypeRecords.Segment.Constant
import TypeRecords.Text.Blank

/-!
Types of C declarations.

Owns the types that storage types become, and their written form. A declaration is written around
the declared name: what stands left of it is spelled out from the type outwards, and the
dimensions of arrays stand right of it, those of the elements first.
-/

namespace TypeRecords.CSource

/-- A C type. -/
inductive CType where
  | void
  | uint16
  | int32
  | int64
  | pointer (target : CType)
  /-- A const-qualified type. -/
  | const (type : CType)
  /-- The struct of that number. -/
  | struct (number : Nat)
  | array (element : CType) (size : Nat)
deriving DecidableEq, Repr, Inhabited

/-- The name of a struct. -/
def structName (number : Nat) : String := s!"Struct_{number}"

namespace CType

/-- The const-qualified version of a type. On an array the qualifier applies to the elements. -/
def constant : CType → CType
  | .array element size => .array element.constant size
  | .const type => .const type
  | other => .const other

def isPointer : CType → Bool
  | .pointer _ => true
  | _ => false

/-- What stands left of the declared name. The qualifier of a pointer stands behind the star. -/
def leftOfName : CType → String
  | .void => "void"
  | .uint16 => "uint16_t"
  | .int32 => "int32_t"
  | .int64 => "int64_t"
  | .pointer target => target.leftOfName ++ "*"
  | .const type =>
    if type.isPointer then type.leftOfName ++ " const" else "const " ++ type.leftOfName
  | .struct number => "struct " ++ structName number
  | .array element _ => element.leftOfName

/-- What stands right of the declared name. -/
def rightOfName : CType → String
  | .pointer target => target.rightOfName
  | .const type => type.rightOfName
  | .array element size => element.rightOfName ++ s!"[{size}]"
  | _ => ""

/-- The declaration of a name, without blanks at its ends. -/
def declare (type : CType) (name : String) : String :=
  let text := s!"{type.leftOfName} {name}{type.rightOfName}"
  String.ofList (Text.trim text.toList)

/-- The type without a name, as in a cast. -/
def typeName (type : CType) : String := type.declare ""

/-- The struct that a value of the type contains, if there is one. What is only pointed to is not
contained. -/
def containedStruct? : CType → Option Nat
  | .struct number => some number
  | .array element _ => element.containedStruct?
  | .const type => type.containedStruct?
  | _ => none

end CType

end TypeRecords.CSource
