import TypeRecords.Identifier
import TypeRecords.Layout
import TypeRecords.QualifiedName

/-!
Descriptions of classes.

Owns the semantic types of fields, and the descriptions of fields, methods and classes. References
between classes are by number; nothing here says whether a number is in use.
-/

namespace TypeRecords

/-- The type of a field, as far as object layout and garbage collection see it. -/
inductive ValueType where
  | bool
  | u8
  | i8
  | i16
  | u16
  | char
  | i32
  | u32
  | i64
  | u64
  | f32
  | f64
  | usize
  | isize
  /-- An unmanaged address, which the collector never follows. -/
  | pointer (target : ValueType)
  /-- A reference to a heap object of a known class. -/
  | object (id : ClassId)
  /-- A reference to a heap object of any class. -/
  | any
deriving DecidableEq, Repr, Inhabited

namespace ValueType

def display : ValueType → String
  | .bool => "bool"
  | .u8 => "u8"
  | .i8 => "i8"
  | .i16 => "i16"
  | .u16 => "u16"
  | .char => "char"
  | .i32 => "i32"
  | .u32 => "u32"
  | .i64 => "i64"
  | .u64 => "u64"
  | .f32 => "f32"
  | .f64 => "f64"
  | .usize => "usize"
  | .isize => "isize"
  | .pointer target => "^" ++ target.display
  | .object id => "object " ++ id.display
  | .any => "any"

/-- Whether the collector must follow a field of this type. -/
def isManagedReference : ValueType → Bool
  | .object _ | .any => true
  | _ => false

/-- The storage class of a field of this type. -/
def scalar : ValueType → Scalar
  | .bool => .bool
  | .i8 | .u8 => .i8
  | .i16 | .u16 | .char => .i16
  | .i32 | .u32 => .i32
  | .i64 | .u64 => .i64
  | .f32 => .f32
  | .f64 => .f64
  | .usize | .isize | .pointer _ | .object _ | .any => .ptr

end ValueType

/-- A class proper or an interface. -/
inductive ClassKind where
  | proper
  | interface
deriving DecidableEq, Repr, Inhabited

/-- Whether a class may be extended, and whether it may be instantiated. -/
inductive Modality where
  | final
  | inheritable
  | abstract
deriving DecidableEq, Repr, Inhabited

/-- Where a class is declared, which decides how the runtime reports its name. -/
inductive ClassScope where
  | topLevel
  | nested (outer : ClassId)
  /-- In the body of a function. -/
  | functionBody
  | anonymous
deriving DecidableEq, Repr, Inhabited

/-- How a method is implemented. -/
inductive Implementation where
  | concrete
  | abstract
  /-- Outside the program: callable, but never through the virtual table. -/
  | external
deriving DecidableEq, Repr, Inhabited

/-- A field declared by a class. -/
structure FieldDefinition where
  name : String
  type : ValueType
deriving DecidableEq, Repr, Inhabited

/-- A method declared by a class. Its name holds all that tells overloads apart. -/
structure MethodDefinition where
  name : String
  implementation : Implementation
  function : Option FunctionId
  /-- Whether subclasses may override it. A method that overrides one of a superclass takes over
  its slot in any case. -/
  overridable : Bool
deriving DecidableEq, Repr, Inhabited

/-- A method by its place in the class that declares it. -/
structure MethodRef where
  owner : ClassId
  index : Nat
deriving DecidableEq, Repr, Inhabited

def MethodRef.display (method : MethodRef) : String :=
  s!"method {method.index} of class {method.owner.display}"

/-- The full description of a class. -/
structure ClassDefinition where
  name : QualifiedName
  kind : ClassKind
  modality : Modality
  scope : ClassScope
  /-- Absent for the root class itself, and for a class right below it. -/
  superclass : Option ClassId
  interfaces : List ClassId
  fields : List FieldDefinition
  methods : List MethodDefinition
  /-- The symbol under which the address of the type record is exported. -/
  exportSymbol : Option String
deriving DecidableEq, Repr, Inhabited

namespace ClassDefinition

def isInterface (definition : ClassDefinition) : Bool := definition.kind = .interface

/-- Interfaces and abstract classes have no instances of their own. -/
def isAbstract (definition : ClassDefinition) : Bool :=
  definition.isInterface || definition.modality = .abstract

/-- The place of the first method of that name. -/
def methodIndex? (definition : ClassDefinition) (name : String) : Option Nat :=
  definition.methods.findIdx? fun method => method.name = name

/-- The name of a declared field inside the name of the class. -/
def qualifiedFieldName? (definition : ClassDefinition) (index : Nat) : Option QualifiedName :=
  definition.fields[index]?.map fun field => definition.name.child field.name

end ClassDefinition

/-- What is known about a class: its name alone, or its definition. -/
inductive ClassEntry where
  | declared (name : QualifiedName)
  | defined (definition : ClassDefinition)
deriving DecidableEq, Repr

namespace ClassEntry

def name : ClassEntry → QualifiedName
  | .declared name => name
  | .defined definition => definition.name

def definition? : ClassEntry → Option ClassDefinition
  | .declared _ => none
  | .defined definition => some definition

def display : ClassEntry → String
  | .declared name => name.display ++ " (forward)"
  | .defined definition =>
    match definition.kind with
    | .proper => "class " ++ definition.name.display
    | .interface => "interface " ++ definition.name.display

end ClassEntry

end TypeRecords
