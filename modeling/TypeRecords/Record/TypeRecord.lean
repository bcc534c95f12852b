import TypeRecords.NameHash
import TypeRecords.Segment.Basic

/-!
The type record of a class.

Owns the record the runtime reads for each type, as a value and as a constant. The order of the
fields is the binary layout. Four of them are tables: a pointer to an array with its element count
next to it. `Segment.placeRecord` makes a record the initial value of a global, provided the
counts agree with the arrays.
-/

namespace TypeRecords

/-- A pointer to an array and the count stored next to it. -/
structure Table where
  array : Option GlobalId
  count : Int32
deriving DecidableEq, Repr, Inhabited

namespace Table

/-- The table of a placed array. -/
def placed (array : GlobalId) (length : Nat) : Table := ⟨some array, Int32.ofNat length⟩

/-- No array, and no elements. -/
def null : Table := ⟨none, 0⟩

/-- An empty array counted as -1, for a table that does not apply to the type. -/
def notApplicable (array : GlobalId) : Table := ⟨some array, -1⟩

/-- The two fields of the record that hold a table. -/
def constants (table : Table) : List Constant :=
  [.globalAddressOrNull table.array, .i32 table.count]

end Table

/-- What the runtime knows about a type. -/
structure TypeRecord where
  nameHash : NameHash
  instanceSize : Int32
  supertype : Option GlobalId
  tracedOffsets : Table
  interfaces : Table
  methods : Table
  fields : Table
  packageName : Option GlobalId
  relativeName : Option GlobalId
  /-- The mutable extension record, on targets that have one. -/
  extension : Option GlobalId
deriving DecidableEq, Repr, Inhabited

namespace TypeRecord

/-- The four tables with their names. -/
def tables (record : TypeRecord) : List (String × Table) :=
  [("object offsets", record.tracedOffsets), ("interfaces", record.interfaces),
    ("methods", record.methods), ("fields", record.fields)]

/-- The record as a constant. -/
def constant (record : TypeRecord) : Constant :=
  .struct
    ([.i64 record.nameHash.signed, .i32 record.instanceSize,
        .globalAddressOrNull record.supertype] ++
      record.tables.flatMap (fun table => table.2.constants) ++
      [.globalAddressOrNull record.packageName, .globalAddressOrNull record.relativeName] ++
      (record.extension.map Constant.globalAddress).toList)

/-- The storage type of a record that no virtual table follows. -/
def dataType (hasExtension : Bool) : DataType :=
  .struct
    ([.i64, .i32, .ptr, .ptr, .i32, .ptr, .i32, .ptr, .i32, .ptr, .i32, .ptr, .ptr] ++
      if hasExtension then [.ptr] else [])

/-- The storage type of an extension record: the native class object bound to the type and its
adapter, which the runtime fills in. -/
def extensionType : DataType := .struct [.ptr, .ptr]

end TypeRecord

namespace Segment

/-- Checks the count of a table against its array. -/
def checkTable (segment : Segment) (name : String) (table : Table) : Except Fault Unit :=
  match table.array with
  | none => if table.count = 0 then .ok () else .error (.tableCountedWithoutArray name)
  | some array =>
    match (segment.get? array).map Global.type with
    | none => .error (.tableMissing name array)
    | some (.array _ length) =>
      let stored := Int32.ofNat length
      if table.count = stored ∨ (table.count = -1 ∧ stored = 0) then .ok ()
      else .error (.tableMiscounted name array stored table.count)
    | some other => .error (.tableNotArray name array other.display)

/-- Defines a declared global as a record, with a virtual table behind it if there is one, and
makes it constant. -/
def placeRecord (id : GlobalId) (record : TypeRecord) (virtualTable : Option Constant) :
    Edit Unit := do
  let segment ← get
  record.tables.forM fun (name, table) => segment.checkTable name table
  define id
    (match virtualTable with
    | some table => .struct [record.constant, table]
    | none => record.constant)
  setConstant id true

end Segment

end TypeRecords
