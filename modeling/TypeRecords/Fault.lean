import TypeRecords.Identifier

/-!
Misuse of the library.

A fault is a broken promise of the caller: an operation on something that does not exist, exists
already, or is not what it has to be. Errors in the described classes are no faults; they have
types of their own, next to the checks that find them.
-/

namespace TypeRecords

/-- What a caller did wrong. -/
inductive Fault where
  /-- Two merged catalogs define a class under one number. -/
  | classDefinedTwice (id : ClassId) (added : String) (existing : String)
  /-- Two merged catalogs have a function under one number. -/
  | functionDeclaredTwice (id : FunctionId) (added existing : String)
  | classRedefined (name : String) (id : ClassId)
  | boxTaken (box value : ClassId)
  | classMissing (id : ClassId)
  | classUndefined (name : String) (id : ClassId)
  /-- A walk over supertypes or interfaces was cut off, because it runs in a circle. -/
  | endlessWalk (id : ClassId)
  | globalNameTaken (name : String) (existing : GlobalId)
  | globalMissing (id : GlobalId)
  | globalRedefined (id : GlobalId) (name : String)
  | alignmentNotPowerOfTwo
  | tableMissing (table : String) (array : GlobalId)
  | tableNotArray (table : String) (array : GlobalId) (found : String)
  | tableMiscounted (table : String) (array : GlobalId) (length count : Int32)
  | tableCountedWithoutArray (table : String)
  | recordNotDeclared (id : ClassId)
  | recordNeverDeclared (id : ClassId)
  | recordDeclaredTwice (id : ClassId)
  | recordGeneratedTwice (id : ClassId)
  | circularStructs
  /-- A map is said to have more entries than any machine can hold. -/
  | mapTooLarge
deriving DecidableEq, Repr

/-- The text of a fault. -/
def Fault.message : Fault → String
  | .classDefinedTwice id added existing =>
    s!"duplicate class ID {id.display} in metadata (new: {added}, existing: {existing})"
  | .functionDeclaredTwice id added existing =>
    s!"duplicate function ID {id.display} in metadata (new: {added}, existing: {existing})"
  | .classRedefined name id => s!"duplicate definition of class {name} ({id.display})"
  | .boxTaken box value =>
    s!"box class {box.display} is already registered for value class {value.display}"
  | .classMissing id => s!"class {id.display} does not exist"
  | .classUndefined name id => s!"class {name} ({id.display}) is not defined"
  | .endlessWalk id => s!"class {id.display} is its own ancestor"
  | .globalNameTaken name existing => s!"duplicate global {name} (existing: {existing.display})"
  | .globalMissing id => s!"global {id.display} does not exist"
  | .globalRedefined id name => s!"global {id.display} ({name}) is already defined"
  | .alignmentNotPowerOfTwo => "element alignment must be a power of two"
  | .tableMissing table array => s!"{table} table {array.display} does not exist"
  | .tableNotArray table array found =>
    s!"{table} table {array.display} is not an array (found {found})"
  | .tableMiscounted table array length count =>
    s!"{table} table {array.display} has {length} elements but a count of {count}"
  | .tableCountedWithoutArray table => s!"{table} table is null but has a count"
  | .recordNotDeclared id => s!"type info for class {id.display} was not declared"
  | .recordNeverDeclared id => s!"type info for class {id.display} was never declared"
  | .recordDeclaredTwice id => s!"type info for class {id.display} declared twice"
  | .recordGeneratedTwice id => s!"type info for class {id.display} generated twice"
  | .circularStructs => "generated struct types contained illegal circular references"
  | .mapTooLarge => "Hash table capacity overflow"

end TypeRecords
