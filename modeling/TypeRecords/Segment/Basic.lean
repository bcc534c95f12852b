import TypeRecords.Fault
import TypeRecords.OrderedMap
import TypeRecords.Segment.Constant

/-!
The static data of a module.

Owns the data segment and the edits that fill it. Globals are numbered in the order they are
declared and keep number, name and linkage for good. A global is defined at most once; from then
on its type is that of its initial value. Strings are placed once each and shared.
-/

namespace TypeRecords

/-- Whether a global is visible outside the module. -/
inductive Linkage where
  | internal
  | exported
deriving DecidableEq, Repr, Inhabited

/-- A named item of static data. -/
structure Global where
  name : String
  /-- The declared type until the global is defined, then the type of its initial value. -/
  type : DataType
  initial : Option Constant
  constant : Bool
  linkage : Linkage
deriving Repr, Inhabited

def Global.isDefined (global : Global) : Bool := global.initial.isSome

def Global.isExported (global : Global) : Bool := global.linkage = .exported

/-- The globals of a module by number, and the indexes over them. -/
structure Segment where
  globals : List Global
  names : OrderedMap String GlobalId
  /-- Globals kept even if nothing refers to them. -/
  used : List GlobalId
  /-- Where each string literal is placed. -/
  strings : OrderedMap String GlobalId

namespace Segment

def empty : Segment := ⟨[], .empty, [], .empty⟩

instance : Inhabited Segment := ⟨empty⟩

/-! ## Queries -/

def get? (segment : Segment) (id : GlobalId) : Option Global := segment.globals[id.number]?

def findByName? (segment : Segment) (name : String) : Option GlobalId :=
  segment.names.find? name

def size (segment : Segment) : Nat := segment.globals.length

def isUsed (segment : Segment) (id : GlobalId) : Bool := id ∈ segment.used

/-- The globals with their numbers. -/
def numbered (segment : Segment) : List (GlobalId × Global) :=
  segment.globals.zipIdx.map fun (global, number) => (⟨number⟩, global)

/-- The globals without an initial value. -/
def undefined (segment : Segment) : List GlobalId :=
  (segment.numbered.filter fun entry => !entry.2.isDefined).map Prod.fst

/-- The name itself where no global has it, and else the name with the least free numeric suffix.
Among one more suffixes than there are names, one is free. -/
def unusedName (segment : Segment) (name : String) : String :=
  if segment.names.contains name then
    let candidates := (List.range' 1 (segment.names.size + 1)).map fun suffix =>
      s!"{name}.{suffix}"
    (candidates.find? fun candidate => !segment.names.contains candidate).getD name
  else name

/-! ## Edits -/

/-- A change of a segment with a result. A misused edit is a fault. -/
abbrev Edit (α : Type) := StateT Segment (Except Fault) α

/-- Adds a global without an initial value. -/
def declare (name : String) (type : DataType) (constant : Bool) (linkage : Linkage) :
    Edit GlobalId := fun segment =>
  match segment.names.find? name with
  | some existing => .error (.globalNameTaken name existing)
  | none =>
    let id : GlobalId := ⟨segment.globals.length⟩
    .ok (id,
      { segment with
        globals := segment.globals ++ [⟨name, type, none, constant, linkage⟩]
        names := segment.names.insert name id })

/-- Changes one global in its place. -/
def modifyGlobal (id : GlobalId) (change : Global → Except Fault Global) : Edit Unit :=
  fun segment =>
    match segment.get? id with
    | none => .error (.globalMissing id)
    | some global => do
      let changed ← change global
      return ((), { segment with globals := segment.globals.set id.number changed })

/-- Gives a global its initial value, and the type of that value. -/
def define (id : GlobalId) (initial : Constant) : Edit Unit :=
  modifyGlobal id fun global =>
    if global.isDefined then .error (.globalRedefined id global.name)
    else .ok { global with type := initial.type, initial := some initial }

/-- Says whether a global is constant. -/
def setConstant (id : GlobalId) (constant : Bool) : Edit Unit :=
  modifyGlobal id fun global => .ok { global with constant }

/-- Adds a defined internal constant. -/
def place (name : String) (initial : Constant) : Edit GlobalId := do
  let id ← declare name initial.type true .internal
  define id initial
  return id

/-- The global that holds a string, placed where the string is new. -/
def internString (text : String) : Edit GlobalId := do
  let segment ← get
  match segment.strings.find? text with
  | some existing => return existing
  | none =>
    let id ← place s!"kstr:{segment.strings.size}" (.utf16 text)
    modify fun segment => { segment with strings := segment.strings.insert text id }
    return id

/-- Keeps a global even if nothing refers to it. -/
def addUsed (id : GlobalId) : Edit Unit := fun segment =>
  if id.number < segment.globals.length then
    if segment.isUsed id then .ok ((), segment)
    else .ok ((), { segment with used := segment.used ++ [id] })
  else .error (.globalMissing id)

/-! ## Edits under fresh names -/

/-- Adds an internal global to be defined later. -/
def declareInternal (name : String) (type : DataType) : Edit GlobalId :=
  declare name type false .internal

/-- Adds an internal global to be defined later, under the name or a suffixed one. -/
def declareFresh (name : String) (type : DataType) : Edit GlobalId := do
  declareInternal ((← get).unusedName name) type

/-- Adds an exported global to be defined later, unless the symbol is taken. Then the global that
has it is the result. -/
def declareExported (symbol : String) (type : DataType) : Edit (Except GlobalId GlobalId) := do
  match (← get).findByName? symbol with
  | some existing => return .error existing
  | none => return .ok (← declare symbol type false .exported)

/-- Adds a defined internal constant under the name or a suffixed one. -/
def placeFresh (name : String) (initial : Constant) : Edit GlobalId := do
  place ((← get).unusedName name) initial

/-- Adds a constant array under the name or a suffixed one. Each array is a global of its own,
even if it is empty. -/
def placeArray (name : String) (element : DataType) (items : List Constant) : Edit GlobalId :=
  placeFresh name (.array element items)

/-- Adds a mutable global of zero bytes under the name or a suffixed one. -/
def placeWritable (name : String) (type : DataType) : Edit GlobalId := do
  let id ← declareFresh name type
  define id (.zero type)
  return id

end Segment

end TypeRecords
