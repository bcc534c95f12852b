import TypeRecords.Class.Basic
import TypeRecords.Fault
import TypeRecords.OrderedMap

/-!
The classes and functions of a module.

Owns the catalog and the operations that fill it: a class may be declared by name before it is
defined, functions get the least free number, and a box class stands for one value class. Each of
the three maps keeps the order of insertion.
-/

namespace TypeRecords

/-- The classes and functions of a module, and which classes box values of other classes. -/
structure Catalog where
  classes : OrderedMap ClassId ClassEntry
  /-- The names of the functions that have one. -/
  functions : OrderedMap FunctionId (Option QualifiedName)
  /-- From a box class to the value class inside. -/
  valueBoxes : OrderedMap ClassId ClassId
deriving DecidableEq

namespace Catalog

/-- The name of the root class. -/
def rootName : QualifiedName := ⟨["system", "Any"]⟩

def empty : Catalog := ⟨.empty, .empty, .empty⟩

instance : Inhabited Catalog := ⟨empty⟩

/-! ## Queries -/

/-- The class that was declared or defined first among those of that name. -/
def findClass? (catalog : Catalog) (name : QualifiedName) : Option ClassId :=
  (catalog.classes.entries.find? fun entry => entry.2.name = name).map Prod.fst

def definition? (catalog : Catalog) (id : ClassId) : Option ClassDefinition :=
  (catalog.classes.find? id).bind ClassEntry.definition?

/-- The definition of a class that must be defined. -/
def definition (catalog : Catalog) (id : ClassId) : Except Fault ClassDefinition :=
  match catalog.classes.find? id with
  | some (.defined definition) => .ok definition
  | some (.declared name) => .error (.classUndefined name.display id)
  | none => .error (.classMissing id)

def className? (catalog : Catalog) (id : ClassId) : Option QualifiedName :=
  (catalog.classes.find? id).map ClassEntry.name

/-- The defined classes in map order. -/
def definitions (catalog : Catalog) : List (ClassId × ClassDefinition) :=
  catalog.classes.entries.filterMap fun entry =>
    entry.2.definition?.map fun definition => (entry.1, definition)

/-- A class as messages mention it: by name, or by number where it has none. -/
def describeClass (catalog : Catalog) (id : ClassId) : String :=
  match catalog.className? id with
  | some name => name.display
  | none => "#" ++ id.display

def method? (catalog : Catalog) (method : MethodRef) : Option MethodDefinition :=
  (catalog.definition? method.owner).bind fun definition => definition.methods[method.index]?

/-- A method as messages mention it. -/
def describeMethod (catalog : Catalog) (method : MethodRef) : String :=
  match catalog.className? method.owner, catalog.method? method with
  | some name, some definition => s!"{name.display}.{definition.name}"
  | some name, none => s!"{name.display}.<method {method.index}>"
  | none, _ => method.display

def functionName? (catalog : Catalog) (id : FunctionId) : Option QualifiedName :=
  (catalog.functions.find? id).bind fun name => name

/-- A function as messages mention it: by name, or by number where it has none. -/
def describeFunction (catalog : Catalog) (id : FunctionId) : String :=
  match catalog.functionName? id with
  | some name => name.display
  | none => id.display

/-- The value class inside a box class. -/
def boxedClass? (catalog : Catalog) (box : ClassId) : Option ClassId :=
  catalog.valueBoxes.find? box

/-! ## Filling a catalog -/

/-- The least number no class has, apart from the root's. -/
def nextClassId (catalog : Catalog) : ClassId :=
  ⟨leastUnused (catalog.classes.keys.map ClassId.number) (ClassId.root.number + 1)⟩

/-- The number under which a name is known, after declaring it where it is not. The root class has
its fixed number whenever it is declared. -/
def declareClass (catalog : Catalog) (name : QualifiedName) : Catalog × ClassId :=
  if name = rootName then
    if catalog.classes.contains ClassId.root then (catalog, ClassId.root)
    else
      ({ catalog with classes := catalog.classes.insert ClassId.root (.declared name) },
        ClassId.root)
  else
    match catalog.findClass? name with
    | some existing => (catalog, existing)
    | none =>
      let id := catalog.nextClassId
      ({ catalog with classes := catalog.classes.insert id (.declared name) }, id)

/-- Defines a class under the number of its name. A class is defined once. -/
def defineClass (catalog : Catalog) (definition : ClassDefinition) :
    Except Fault (Catalog × ClassId) :=
  let (declared, id) := catalog.declareClass definition.name
  match declared.definition? id with
  | some existing => .error (.classRedefined existing.name.display id)
  | none =>
    .ok ({ declared with classes := declared.classes.insert id (.defined definition) }, id)

/-- Adds a function under the least free number. -/
def insertFunction (catalog : Catalog) (name : Option QualifiedName) : Catalog × FunctionId :=
  let id : FunctionId := ⟨leastUnused (catalog.functions.keys.map FunctionId.number) 0⟩
  ({ catalog with functions := catalog.functions.insert id name }, id)

/-- Makes one class the box of another. A box class has one value class. -/
def registerBox (catalog : Catalog) (box value : ClassId) : Except Fault Catalog :=
  let registered := { catalog with valueBoxes := catalog.valueBoxes.insert box value }
  match catalog.valueBoxes.find? box with
  | some existing =>
    if existing = value then .ok registered else .error (.boxTaken box existing)
  | none => .ok registered

/-! ## Merging -/

/-- Takes in a class of another catalog. A definition replaces a declaration; a declaration
replaces nothing. -/
def mergeClass (classes : OrderedMap ClassId ClassEntry) (id : ClassId) (added : ClassEntry) :
    Except Fault (OrderedMap ClassId ClassEntry) :=
  match classes.find? id, added with
  | some (.defined existing), .defined _ =>
    .error (.classDefinedTwice id added.display existing.name.display)
  | some _, .declared _ => .ok classes
  | _, _ => .ok (classes.insert id added)

/-- A function's name as a merge mentions it. -/
def mergedFunctionName (name : Option QualifiedName) : String :=
  (name.map QualifiedName.display).getD "<unnamed>"

/-- Takes in a function of another catalog. -/
def mergeFunction (functions : OrderedMap FunctionId (Option QualifiedName)) (id : FunctionId)
    (added : Option QualifiedName) :
    Except Fault (OrderedMap FunctionId (Option QualifiedName)) :=
  match functions.find? id with
  | some existing =>
    .error
      (.functionDeclaredTwice id (mergedFunctionName added) (mergedFunctionName existing))
  | none => .ok (functions.insert id added)

/-- Takes in a box of another catalog. A box already known keeps its value class. -/
def mergeBox (boxes : OrderedMap ClassId ClassId) (box value : ClassId) :
    OrderedMap ClassId ClassId :=
  if boxes.contains box then boxes else boxes.insert box value

/-- Takes in all of another catalog. -/
def extend (catalog other : Catalog) : Except Fault Catalog := do
  let classes ← other.classes.entries.foldlM
    (fun classes entry => mergeClass classes entry.1 entry.2) catalog.classes
  let functions ← other.functions.entries.foldlM
    (fun functions entry => mergeFunction functions entry.1 entry.2) catalog.functions
  let valueBoxes := other.valueBoxes.entries.foldl
    (fun boxes entry => mergeBox boxes entry.1 entry.2) catalog.valueBoxes
  return ⟨classes, functions, valueBoxes⟩

end Catalog

end TypeRecords
