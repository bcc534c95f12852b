import TypeRecords.Record.Assembly

/-!
Type records of anonymous implementations of an interface.

Such a record lets a foreign callable stand in for the interface. Its methods are those of the
root class and of the interface; given functions replace members the interface itself declares,
and all others keep their default or stay abstract. The methods are checked before anything is
placed, and the virtual table of the root class after its arrays are.
-/

namespace TypeRecords

/-- A function to stand in for a method of an interface. -/
structure Override where
  method : MethodRef
  function : FunctionId
deriving DecidableEq, Repr, Inhabited

namespace Catalog

/-- Adds the member of an interface to the method records, unless they have one of its name. -/
def addMemberRecord (catalog : Catalog) (records : List MethodRecord) (member : DispatchEntry) :
    Except Failure (List MethodRecord) := do
  if records.any fun record => record.name = member.name then return records
  return records ++ [← catalog.methodRecord member]

/-- Puts a record in the place of the one of its name, or at the end. -/
def replaceRecord (records : List MethodRecord) (added : MethodRecord) : List MethodRecord :=
  match records.findIdx? fun record => record.name = added.name with
  | some index => records.set index added
  | none => records ++ [added]

/-- Lets a function stand in for a method of the interface. -/
def applyOverride (catalog : Catalog) (interface : ClassId) (interfaceName : QualifiedName)
    (records : List MethodRecord) (override : Override) :
    Except Failure (List MethodRecord) := do
  if override.method.owner ≠ interface then
    throw (.reported (.overrideOutsideInterface interfaceName
      (catalog.describeMethod override.method)))
  let definition ← catalog.declaredMethod override.method
  return replaceRecord records
    ⟨NameHash.of definition.name, definition.name, override.method, some override.function⟩

/-- The method table of an implementation of an interface. -/
def adapterMethods (catalog : Catalog) (interface : ClassId) (interfaceName : QualifiedName)
    (overrides : List Override) : Except Failure (List MethodRecord) := do
  let rootRecords ← catalog.methodTable ClassId.root
  let members ← catalog.interfaceMembers interface
  let records ← members.foldlM catalog.addMemberRecord rootRecords
  let records ← overrides.foldlM (catalog.applyOverride interface interfaceName) records
  catalog.sortDistinct interfaceName records

end Catalog

namespace Generator

/-- Generates the record of an anonymous implementation of an interface. -/
def generateAdapter (generator : Generator) (interface : ClassId) (overrides : List Override) :
    Build GlobalId := do
  let catalog := generator.catalog
  let definition ← Build.askChecked (catalog.definition interface)
  if !definition.isInterface then throw (.reported (.notAnInterface definition.name))
  let methods ← Build.ask (catalog.adapterMethods interface definition.name overrides)
  let name := definition.name.display ++ "$impl"
  let interfaceGlobal ← recordGlobal interface
  let interfaceArray ← Build.edit (Segment.placeArray (interfacesPrefix ++ name) .ptr
    [.globalAddress interfaceGlobal])
  let methodArray ← Build.edit (Segment.placeArray (methodsPrefix ++ name) MethodRecord.dataType
    (methods.map MethodRecord.constant))
  let extension ← generator.placeExtension name
  let rootGlobal ← recordGlobal ClassId.root
  let record : TypeRecord := {
    nameHash := NameHash.of ""
    instanceSize := 0
    supertype := some rootGlobal
    tracedOffsets := .null
    interfaces := .placed interfaceArray 1
    methods := .placed methodArray methods.length
    fields := .null
    packageName := none
    relativeName := none
    extension }
  let slots ← Build.ask (catalog.virtualTable ClassId.root)
  let global ← Build.edit (Segment.declareFresh (recordPrefix ++ name)
    (TypeRecord.dataType extension.isSome))
  Build.edit (Segment.placeRecord global record (some (VirtualSlot.tableConstant slots)))
  return global

end Generator

end TypeRecords
