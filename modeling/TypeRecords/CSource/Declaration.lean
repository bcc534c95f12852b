import TypeRecords.CSource.Expression

/-!
Declarations and definitions of C source.
-/

namespace TypeRecords.CSource

/-- The comment line in front of a declaration. -/
def commentLine (comment : Option String) : String :=
  match comment with
  | some text => s!"/** {text} */\n"
  | none => ""

/-- A struct with the natural layout of its members. -/
structure StructDefinition where
  number : Nat
  members : List CType
  comment : Option String
deriving DecidableEq, Repr

namespace StructDefinition

/-- The declaration of the struct's name. -/
def head (definition : StructDefinition) : String := "struct " ++ structName definition.number

def memberLine (member : CType × Nat) : String :=
  "    " ++ member.1.declare s!"field_{member.2}" ++ ";\n"

def display (definition : StructDefinition) : String :=
  commentLine definition.comment ++ definition.head ++ " \x7b\n" ++
    String.join (definition.members.zipIdx.map memberLine) ++ "\x7d"

end StructDefinition

/-- A function whose address is stored in the data. Only its address is taken, so its type is of
no account. -/
structure FunctionDeclaration where
  id : FunctionId
  comment : Option String
deriving DecidableEq, Repr

def FunctionDeclaration.display (declaration : FunctionDeclaration) : String :=
  commentLine declaration.comment ++ s!"extern void {functionName declaration.id}(void)"

/-- A variable that holds a global. -/
structure GlobalVariable where
  name : GlobalName
  type : CType
  /-- Absent where the global is only declared. -/
  initial : Option Expression
  constant : Bool
  exported : Bool
  /-- Whether the definition is kept even if the linker sees no reference to it. -/
  used : Bool
  comment : Option String
deriving Repr

namespace GlobalVariable

def qualifiedType (declared : GlobalVariable) : CType :=
  if declared.constant then declared.type.constant else declared.type

/-- The declaration in front of all definitions, so that initializers can refer to any
declared. -/
def declaration (declared : GlobalVariable) : String :=
  (if declared.exported then "extern " else "static ") ++
    declared.qualifiedType.declare declared.name.display

/-- The definition, where there is an initial value. -/
def definition? (declared : GlobalVariable) : Option String :=
  declared.initial.map fun initial =>
    (if declared.used then "__attribute__((used)) " else "") ++
      (if declared.exported then "" else "static ") ++
      declared.qualifiedType.declare declared.name.display ++ " = " ++ initial.display

end GlobalVariable

end TypeRecords.CSource
