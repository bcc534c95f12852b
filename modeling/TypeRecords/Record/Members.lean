import TypeRecords.Record.Instance
import TypeRecords.Segment.Constant

/-!
The hashed tables of fields and methods.

Owns the records of the two tables, the tables of a class, and the lookup by hash. Both tables are
in ascending order of the hash as an unsigned word, which the binary search relies on. A method
table holds a hash once.
-/

namespace TypeRecords

/-- The item under a hash, in a table in ascending order of hashes. The table is halved until at
most one item is left; the half from the middle item on is kept if that item is not beyond the
hash. -/
def searchByHash {α : Type} (hashOf : α → NameHash) (hash : NameHash) (table : List α) : Option α :=
  if table.length ≤ 1 then table.find? fun item => hashOf item = hash
  else
    let front := table.take (table.length / 2)
    let back := table.drop (table.length / 2)
    if back.head?.any fun middle => (hashOf middle).atMost hash then searchByHash hashOf hash back
    else searchByHash hashOf hash front
termination_by table.length
decreasing_by
  · rw [List.length_drop]
    omega
  · rw [List.length_take]
    omega

/-- An entry of a field table. -/
structure FieldRecord where
  hash : NameHash
  offset : Int32
deriving DecidableEq, Repr, Inhabited

namespace FieldRecord

/-- The storage type of an entry. -/
def dataType : DataType := .struct [.i64, .i32]

def constant (record : FieldRecord) : Constant :=
  .struct [.i64 record.hash.signed, .i32 record.offset]

/-- The offset under a hash. -/
def lookup? (table : List FieldRecord) (hash : NameHash) : Option Int32 :=
  (searchByHash FieldRecord.hash hash table).map FieldRecord.offset

end FieldRecord

/-- An entry of a method table. -/
structure MethodRecord where
  hash : NameHash
  name : String
  implementation : MethodRef
  /-- Absent for abstract members. -/
  entryPoint : Option FunctionId
deriving DecidableEq, Repr, Inhabited

namespace MethodRecord

/-- The storage type of an entry. -/
def dataType : DataType := .struct [.i64, .ptr]

def constant (record : MethodRecord) : Constant :=
  .struct [.i64 record.hash.signed, .functionAddressOrNull record.entryPoint]

/-- The record under a hash. -/
def lookup? (table : List MethodRecord) (hash : NameHash) : Option MethodRecord :=
  searchByHash MethodRecord.hash hash table

/-- The first two neighbours with the same hash. -/
def firstClash? : List MethodRecord → Option (MethodRecord × MethodRecord)
  | first :: second :: rest =>
    if first.hash = second.hash then some (first, second) else firstClash? (second :: rest)
  | _ => none

end MethodRecord

/-- The fields a class declares with their offsets, by the hash of their qualified names. The
names are qualified because a subclass may declare a field of the same name. -/
def fieldTable (definition : ClassDefinition) (layout : InstanceLayout) : List FieldRecord :=
  let records := layout.fieldOffsets.zipIdx.filterMap fun (offset, index) =>
    (definition.qualifiedFieldName? index).map fun name =>
      (⟨NameHash.of name.display, offset⟩ : FieldRecord)
  records.mergeSort fun left right => left.hash.atMost right.hash

namespace Catalog

/-- A method that must be declared. -/
def declaredMethod (catalog : Catalog) (method : MethodRef) :
    Except Failure MethodDefinition :=
  match catalog.method? method with
  | some definition => .ok definition
  | none => .error (.reported (.unknownMethod (catalog.describeMethod method)))

/-- The function of a method that must have one. -/
def requiredFunction (catalog : Catalog) (method : MethodRef) (definition : MethodDefinition) :
    Except Failure FunctionId :=
  match definition.function with
  | some function => .ok function
  | none => .error (.reported (.missingEntryPoint (catalog.describeMethod method)))

/-- What a method table stores for an implementing method: nothing for an abstract one, and
otherwise its function. -/
def entryPoint (catalog : Catalog) (method : MethodRef) :
    Except Failure (Option FunctionId) := do
  let definition ← catalog.declaredMethod method
  match definition.implementation with
  | .abstract => return none
  | .concrete | .external => return some (← catalog.requiredFunction method definition)

/-- The method table entry of a member. -/
def methodRecord (catalog : Catalog) (entry : DispatchEntry) : Except Failure MethodRecord := do
  return {
    hash := NameHash.of entry.name
    name := entry.name
    implementation := entry.implementation
    entryPoint := ← catalog.entryPoint entry.implementation }

/-- A method table entry as messages mention it. -/
def describeRecord (catalog : Catalog) (record : MethodRecord) : String :=
  s!"{record.name} (implemented by {catalog.describeMethod record.implementation})"

/-- Orders records by hash. No two may share one. -/
def sortDistinct (catalog : Catalog) (className : QualifiedName)
    (records : List MethodRecord) : Except Failure (List MethodRecord) :=
  let sorted := records.mergeSort fun left right => left.hash.atMost right.hash
  match MethodRecord.firstClash? sorted with
  | none => .ok sorted
  | some (first, second) =>
    .error (.reported (.duplicateHash className second.name second.hash
      (catalog.describeRecord first) (catalog.describeRecord second)))

/-- The method table of a class. That of an abstract class is empty. -/
def methodTable (catalog : Catalog) (id : ClassId) : Except Failure (List MethodRecord) := do
  let definition ← catalog.definition id
  if definition.isAbstract then return []
  let members ← catalog.members id
  let records ← members.mapM catalog.methodRecord
  catalog.sortDistinct definition.name records

end Catalog

end TypeRecords
