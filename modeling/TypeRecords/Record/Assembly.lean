import TypeRecords.Record.Reflection
import TypeRecords.Record.Registry
import TypeRecords.Record.VirtualTable

/-!
Building type records.

Owns the assembly of a module's type records, which grows by build steps, and the two steps for a
class: `declareRecord` reserves its global, so that other records can point to it, and
`generateRecord` fills it in. A step that reports an error keeps what it had placed before.
-/

namespace TypeRecords

/-- The static data of a module and the registry of its records. -/
structure Assembly where
  segment : Segment
  registry : Registry
deriving Inhabited

def Assembly.empty : Assembly := ⟨.empty, .empty⟩

/-- A step that extends an assembly. The assembly reached remains where the step fails. -/
abbrev Build (α : Type) := EStateM Failure Assembly α

namespace Build

/-- An edit of the segment as a step. -/
def edit {α : Type} (action : Segment.Edit α) : Build α := fun assembly =>
  match action assembly.segment with
  | .ok (value, segment) => .ok value { assembly with segment }
  | .error fault => .error (.fault fault) assembly

/-- A change of the registry as a step. -/
def register (change : Registry → Except Fault Registry) : Build Unit := fun assembly =>
  match change assembly.registry with
  | .ok registry => .ok () { assembly with registry }
  | .error fault => .error (.fault fault) assembly

/-- A question about the described classes as a step. -/
def ask {α : Type} (answer : Except Failure α) : Build α := fun assembly =>
  match answer with
  | .ok value => .ok value assembly
  | .error failure => .error failure assembly

/-- Like `ask`, for a question that can only be answered or misused. -/
def askChecked {α : Type} (answer : Except Fault α) : Build α := ask (answer.mapError .fault)

end Build

/-- The classes to generate records for, and the target they are for. -/
structure Generator where
  catalog : Catalog
  target : Target

namespace Generator

/-- The fixed parts of the names of generated globals. -/
def recordPrefix : String := "ktype:"
def extensionPrefix : String := "kwti:"
def interfacesPrefix : String := "kintf:"
def tracedPrefix : String := "krefs:"
def fieldsPrefix : String := "kfields:"
def methodsPrefix : String := "kmethods:"

/-- Places the extension record of a type, where the target has them. -/
def placeExtension (generator : Generator) (name : String) : Build (Option GlobalId) :=
  if generator.target.hasExtensionRecords then
    some <$> Build.edit (Segment.placeWritable (extensionPrefix ++ name) TypeRecord.extensionType)
  else pure none

/-- Reserves the global of a class's record, and its extension record. -/
def declareRecord (generator : Generator) (id : ClassId) : Build GlobalId := do
  let definition ← Build.askChecked (generator.catalog.definition id)
  let name := definition.name.display
  let global ← Build.edit (Segment.declareInternal (recordPrefix ++ name)
    (TypeRecord.dataType generator.target.hasExtensionRecords))
  let extension ← generator.placeExtension name
  Build.register fun registry => registry.declare id global extension
  return global

/-- The global of a class's record, which must be declared. -/
def recordGlobal (id : ClassId) : Build GlobalId := do
  match (← get).registry.find? id with
  | some entry => return entry.global
  | none => throw (.fault (.recordNotDeclared id))

/-- Places a part of a reported name. -/
def placeNamePart : Option String → Build (Option GlobalId)
  | some text => some <$> Build.edit (Segment.internString text)
  | none => pure none

/-- The virtual table behind the record of a class. Classes without instances have none, and
neither have those without slots. -/
def recordVirtualTable (generator : Generator) (id : ClassId) (definition : ClassDefinition) :
    Except Failure (Option Constant) := do
  if definition.isAbstract then return none
  let slots ← generator.catalog.virtualTable id
  return if slots.isEmpty then none else some (VirtualSlot.tableConstant slots)

/-- Exports the address of a record under the symbol its class asks for. The symbol must be free.
It is kept where only code outside the image may refer to it. -/
def exportRecord (generator : Generator) (definition : ClassDefinition) (global : GlobalId) :
    Build (Option GlobalId) := do
  match definition.exportSymbol with
  | none => return none
  | some symbol =>
    match ← Build.edit (Segment.declareExported symbol .ptr) with
    | .error _ => throw (.reported (.duplicateExport definition.name symbol))
    | .ok exported =>
      Build.edit (Segment.define exported (.globalAddress global))
      Build.edit (Segment.setConstant exported true)
      if generator.target.stripsUnreferencedSymbols then
        Build.edit (Segment.addUsed exported)
      return some exported

/-- Generates the record of a class with its tables, and exports it where asked for. -/
def generateRecord (generator : Generator) (id : ClassId) : Build GlobalId := do
  let catalog := generator.catalog
  let definition ← Build.askChecked (catalog.definition id)
  let name := definition.name.display
  let layout ← Build.ask (catalog.instanceLayout generator.target id)
  let supertype ← (← Build.askChecked (catalog.supertype? id)).mapM recordGlobal
  let interfaces ← (← Build.askChecked (catalog.interfaces id)).mapM recordGlobal
  let interfaceArray ← Build.edit (Segment.placeArray (interfacesPrefix ++ name) .ptr
    (interfaces.map Constant.globalAddress))
  let tracedArray ← Build.edit (Segment.placeArray (tracedPrefix ++ name) .i32
    (layout.tracedOffsets.map Constant.i32))
  let fields := if definition.isInterface then [] else fieldTable definition layout
  let fieldArray ← Build.edit (Segment.placeArray (fieldsPrefix ++ name) FieldRecord.dataType
    (fields.map FieldRecord.constant))
  let methods ← Build.ask (catalog.methodTable id)
  let methodArray ← Build.edit (Segment.placeArray (methodsPrefix ++ name) MethodRecord.dataType
    (methods.map MethodRecord.constant))
  let reflected ← Build.askChecked (catalog.reflectedName id)
  let packageName ← placeNamePart reflected.package
  let relativeName ← placeNamePart reflected.relative
  let record : TypeRecord := {
    nameHash := NameHash.of name
    instanceSize := layout.size
    supertype
    tracedOffsets := .placed tracedArray layout.tracedOffsets.length
    interfaces := .placed interfaceArray interfaces.length
    methods := .placed methodArray methods.length
    fields :=
      if definition.isInterface then .notApplicable fieldArray
      else .placed fieldArray fields.length
    packageName
    relativeName
    extension := ((← get).registry.find? id).bind RecordEntry.extension }
  let virtualTable ← Build.ask (generator.recordVirtualTable id definition)
  let global ← recordGlobal id
  Build.edit (Segment.placeRecord global record virtualTable)
  let exported ← generator.exportRecord definition global
  Build.register fun registry => registry.complete id record exported
  return global

end Generator

end TypeRecords
