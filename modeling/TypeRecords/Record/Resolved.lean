import TypeRecords.Record.Module

/-!
Type records with their references followed.

Owns the view of a generated record in which arrays stand for the pointers to them, texts for the
pointers to strings, and names for the addresses of globals and functions. The view does not
depend on the order in which globals were placed.
-/

namespace TypeRecords

/-- An item of an array with names for the addresses in it. -/
inductive ResolvedItem where
  | atom (text : String)
  | group (members : List ResolvedItem)
deriving Repr, Inhabited

/-- A type record with its references followed. -/
structure ResolvedRecord where
  id : ClassId
  globalName : String
  constant : Bool
  record : TypeRecord
  supertype : Option String
  tracedOffsets : List ResolvedItem
  interfaces : List ResolvedItem
  methods : List ResolvedItem
  fields : List ResolvedItem
  packageName : Option String
  relativeName : Option String
  extension : Option String
  exported : Option String
  virtualTable : Option (List ResolvedItem)
deriving Repr, Inhabited

namespace Segment

def nameOf (segment : Segment) (id : GlobalId) : String :=
  ((segment.get? id).map Global.name).getD id.display

/-- The initial value of a global. -/
def initial? (segment : Segment) (id : GlobalId) : Option Constant :=
  (segment.get? id).bind Global.initial

/-- The text a string global holds. -/
def textOf? (segment : Segment) (id : GlobalId) : Option String :=
  match segment.initial? id with
  | some (.utf16 text) => some text
  | _ => none

/-- The items of the array of a table. -/
def itemsOf (segment : Segment) (table : Table) : List Constant :=
  match table.array.bind segment.initial? with
  | some (.array _ items) => items
  | _ => []

end Segment

mutual

/-- A constant with names for the addresses in it. -/
def ResolvedItem.ofConstant (segment : Segment) (catalog : Catalog) : Constant → ResolvedItem
  | .struct members => .group (ofConstants segment catalog members)
  | .globalAddress id => .atom (segment.nameOf id)
  | .functionAddress id => .atom (catalog.describeFunction id)
  | other => .atom (other.write .numbers)

def ResolvedItem.ofConstants (segment : Segment) (catalog : Catalog) :
    List Constant → List ResolvedItem
  | [] => []
  | item :: rest => ofConstant segment catalog item :: ofConstants segment catalog rest

end

namespace Assembly

/-- The slots of the virtual table that follows a record. -/
def virtualTableOf? (assembly : Assembly) (global : GlobalId) : Option (List Constant) :=
  match assembly.segment.initial? global with
  | some (.struct [.struct _, .array _ slots]) => some slots
  | _ => none

/-- The record of an entry with its references followed, once it is generated. -/
def resolveEntry (assembly : Assembly) (catalog : Catalog) (id : ClassId)
    (entry : RecordEntry) : Option ResolvedRecord :=
  entry.record.map fun record =>
    let segment := assembly.segment
    let items (table : Table) := ResolvedItem.ofConstants segment catalog (segment.itemsOf table)
    { id
      globalName := segment.nameOf entry.global
      constant := ((segment.get? entry.global).map Global.constant).getD false
      record
      supertype := record.supertype.map segment.nameOf
      tracedOffsets := items record.tracedOffsets
      interfaces := items record.interfaces
      methods := items record.methods
      fields := items record.fields
      packageName := record.packageName.bind segment.textOf?
      relativeName := record.relativeName.bind segment.textOf?
      extension := record.extension.map segment.nameOf
      exported := entry.exportGlobal.map segment.nameOf
      virtualTable := (assembly.virtualTableOf? entry.global).map
        (ResolvedItem.ofConstants segment catalog) }

/-- All generated records by class number, with their references followed. -/
def resolved (assembly : Assembly) (catalog : Catalog) : List ResolvedRecord :=
  assembly.registry.sorted.filterMap fun (id, entry) =>
    assembly.resolveEntry catalog id entry

end Assembly

end TypeRecords
