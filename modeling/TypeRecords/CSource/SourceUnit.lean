import TypeRecords.Class.Catalog
import TypeRecords.CSource.Declaration
import TypeRecords.Schedule
import TypeRecords.Text.Quoted

/-!
C source that defines a data segment.

Owns the unit a segment becomes and its text. Each list of member types gets one struct, numbered
in order of first use with the inner ones first; each function whose address is taken gets one
declaration; each global gets one declared. In the text all declarations stand before the first
definition.
-/

namespace TypeRecords.CSource

/-- How a unit is written. -/
structure Options where
  /-- Mark the globals to be kept for the linker. -/
  retainUsed : Bool
  /-- Comment declarations with the names they have in the segment. -/
  comments : Bool
deriving DecidableEq, Repr

/-- Comments, and no marks. -/
def Options.standard : Options := ⟨false, true⟩

/-- The comment a name becomes. -/
def Options.comment (options : Options) (name : String) : Option String :=
  if options.comments then some (Text.commentText name) else none

/-- The member lists of the structs in use, by number. -/
abbrev StructTable := List (List CType)

namespace StructTable

/-- The number of the struct with these members, which is added where it is new. -/
def intern (structs : StructTable) (members : List CType) : StructTable × Nat :=
  match structs.findIdx? fun other => other = members with
  | some number => (structs, number)
  | none => (structs ++ [members], structs.length)

mutual

/-- The C type of a storage type. -/
def represent (structs : StructTable) : DataType → StructTable × CType
  | .i32 => (structs, .int32)
  | .i64 => (structs, .int64)
  | .u16 => (structs, .uint16)
  | .ptr => (structs, .pointer (.const .void))
  | .array element length =>
    let (structs, elementType) := represent structs element
    (structs, .array elementType length)
  | .struct members =>
    let (structs, memberTypes) := representAll structs members
    let (structs, number) := structs.intern memberTypes
    (structs, .struct number)

/-- The C types of storage types, from left to right. -/
def representAll (structs : StructTable) : List DataType → StructTable × List CType
  | [] => (structs, [])
  | member :: rest =>
    let (structs, memberType) := represent structs member
    let (structs, restTypes) := representAll structs rest
    (structs, memberType :: restTypes)

end

end StructTable

namespace Expression

mutual

/-- The C expression of a constant. -/
def ofConstant (segment : Segment) : Constant → Expression
  | .i32 value => .integer value.toInt
  | .i64 value => .integer value.toInt
  | .null => .null
  | .globalAddress id => .addressOf (.global (.of segment id))
  | .functionAddress id => .cast (.function id) (.pointer (.const .void))
  | .utf16 text => .list ((Text.utf16Units text).map fun unit => .integer unit.toNat)
  | .array _ items => .list (ofConstants segment items)
  | .struct members => .list (ofConstants segment members)
  | .zero type => .zero type

def ofConstants (segment : Segment) : List Constant → List Expression
  | [] => []
  | item :: rest => ofConstant segment item :: ofConstants segment rest

end

end Expression

/-- The contents of a C source file. -/
structure SourceUnit where
  structs : StructTable
  functions : List FunctionDeclaration
  globals : List GlobalVariable
deriving Repr

namespace SourceUnit

def empty : SourceUnit := ⟨[], [], []⟩

/-- Declares a function unless it is declared already. -/
def declareFunction (catalog : Catalog) (options : Options)
    (functions : List FunctionDeclaration) (id : FunctionId) : List FunctionDeclaration :=
  if functions.any fun declaration => declaration.id = id then functions
  else functions ++ [⟨id, options.comment (catalog.describeFunction id)⟩]

/-- Adds the variable of a global, with the structs and functions it mentions. -/
def addGlobal (segment : Segment) (catalog : Catalog) (options : Options) (unit : SourceUnit)
    (numbered : GlobalId × Global) : SourceUnit :=
  let (id, global) := numbered
  let (structs, type) := unit.structs.represent global.type
  let mentioned := (global.initial.map Constant.functions).getD []
  { structs
    functions := mentioned.foldl (declareFunction catalog options) unit.functions
    globals := unit.globals ++ [{
      name := .of segment id
      type
      initial := global.initial.map (Expression.ofConstant segment)
      constant := global.constant
      exported := global.isExported
      used := options.retainUsed && segment.isUsed id
      comment := options.comment global.name }] }

/-- The unit of a segment. The catalog names functions in comments. -/
def ofSegment (segment : Segment) (catalog : Catalog) (options : Options) : SourceUnit :=
  segment.numbered.foldl (addGlobal segment catalog options) empty

/-- The structs by number. -/
def structDefinitions (unit : SourceUnit) : List StructDefinition :=
  unit.structs.zipIdx.map fun (members, number) => ⟨number, members, none⟩

/-- What each struct contains must be defined before it. -/
def structTasks (unit : SourceUnit) : List (Task Nat) :=
  unit.structs.zipIdx.map fun (members, number) =>
    ⟨number, members.filterMap CType.containedStruct?⟩

/-- The structs in order of definition, each after the ones it contains. -/
def orderedStructs (unit : SourceUnit) : Except Fault (List StructDefinition) :=
  let (order, stuck) := Task.schedule (fun left right => decide (left ≤ right)) unit.structTasks
  if stuck.isEmpty then
    .ok (order.filterMap fun number => unit.structDefinitions[number]?)
  else .error .circularStructs

/-- The items, each with an end, and a blank line behind them if there are any. -/
def paragraph (items : List String) (itemEnd : String) : String :=
  if items.isEmpty then "" else String.join (items.map (· ++ itemEnd)) ++ "\n"

/-- The text of the unit. -/
def display (unit : SourceUnit) : Except Fault String := do
  let structs ← unit.orderedStructs
  let declarations := unit.globals.map fun declared =>
    commentLine declared.comment ++ declared.declaration ++ ";\n"
  let definitions := unit.globals.filterMap fun declared =>
    declared.definition?.map (· ++ ";\n")
  return "#include <stddef.h>\n#include <stdint.h>\n\n" ++
    paragraph (structs.map StructDefinition.head) ";\n" ++
    String.join (structs.map fun definition => definition.display ++ ";\n\n") ++
    paragraph (unit.functions.map FunctionDeclaration.display) ";\n" ++
    String.join declarations ++ "\n" ++ String.join definitions

end SourceUnit

end TypeRecords.CSource
