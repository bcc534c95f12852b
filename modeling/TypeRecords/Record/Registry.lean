import TypeRecords.Record.TypeRecord

/-!
Which class has which type record.

Owns the registry: a class is entered once when its record is declared, and completed once when it
is generated.
-/

namespace TypeRecords

/-- The record of a class. -/
structure RecordEntry where
  global : GlobalId
  extension : Option GlobalId
  /-- Absent until the record is generated. -/
  record : Option TypeRecord
  exportGlobal : Option GlobalId
deriving DecidableEq, Repr

/-- The records of the classes of a module. -/
structure Registry where
  entries : OrderedMap ClassId RecordEntry
deriving DecidableEq

namespace Registry

def empty : Registry := ⟨.empty⟩

instance : Inhabited Registry := ⟨empty⟩

def find? (registry : Registry) (id : ClassId) : Option RecordEntry := registry.entries.find? id

def size (registry : Registry) : Nat := registry.entries.size

/-- The entries by class number. -/
def sorted (registry : Registry) : List (ClassId × RecordEntry) :=
  registry.entries.entries.mergeSort fun left right => left.1.atMost right.1

/-- Enters a class whose record is declared. -/
def declare (registry : Registry) (id : ClassId) (global : GlobalId)
    (extension : Option GlobalId) : Except Fault Registry :=
  if registry.entries.contains id then .error (.recordDeclaredTwice id)
  else .ok ⟨registry.entries.insert id ⟨global, extension, none, none⟩⟩

/-- Completes the entry of a class whose record is generated. -/
def complete (registry : Registry) (id : ClassId) (record : TypeRecord)
    (exportGlobal : Option GlobalId) : Except Fault Registry :=
  match registry.find? id with
  | none => .error (.recordNeverDeclared id)
  | some entry =>
    if entry.record.isSome then .error (.recordGeneratedTwice id)
    else
      .ok ⟨registry.entries.insert id
        { entry with record := some record, exportGlobal }⟩

end Registry

end TypeRecords
