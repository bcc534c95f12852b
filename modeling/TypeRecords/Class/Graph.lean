import TypeRecords.Class.Catalog
import TypeRecords.Diagnostic
import TypeRecords.Schedule

/-!
Checking and ordering the class graph.

Owns the errors a class graph can have and the order of its classes. Every class but the root has
a supertype, the root where it names none. A class comes after its supertype and its interfaces;
classes that could come next together are ordered by number.
-/

namespace TypeRecords

/-- A defect of the class graph. -/
inductive GraphError where
  /-- A class refers to one that is missing or only declared. -/
  | unresolved (name : QualifiedName) (reference : String)
  | circular (name : QualifiedName)
  | missingRoot
  | rootHasSupertype (root : QualifiedName)
  | notAnInterface (name interface : QualifiedName)
  | supertypeIsInterface (name supertype : QualifiedName)
  | interfaceHasSupertype (interface supertype : QualifiedName)
  | duplicateName (name : QualifiedName) (first second : ClassId)
deriving DecidableEq, Repr

namespace GraphError

def message : GraphError → String
  | .unresolved name reference =>
    s!"class {name.display} refers to undefined class {reference}"
  | .circular name => s!"circular class reference involving class {name.display}"
  | .missingRoot => "root class is not defined"
  | .rootHasSupertype root => s!"root class {root.display} must not have a supertype"
  | .notAnInterface name interface =>
    s!"class {name.display} implements {interface.display}, which is not an interface"
  | .supertypeIsInterface name supertype =>
    s!"class {name.display} extends interface {supertype.display}"
  | .interfaceHasSupertype interface supertype =>
    s!"interface {interface.display} declares supertype {supertype.display}"
  | .duplicateName name first second =>
    s!"class {name.display} is defined twice (as {first.display} and {second.display})"

def title : GraphError → String
  | .unresolved .. => "Unresolved class reference"
  | .circular .. => "Circular class reference"
  | .missingRoot => "Missing root class"
  | .rootHasSupertype .. => "Invalid root class"
  | .notAnInterface .. => "Not an interface"
  | .supertypeIsInterface .. => "Invalid supertype"
  | .interfaceHasSupertype .. => "Invalid supertype"
  | .duplicateName .. => "Duplicate class"

def notes : GraphError → List String
  | .missingRoot => ["class descriptors must include " ++ Catalog.rootName.display]
  | .circular _ =>
    ["a class may not be its own supertype, super-interface or enclosing class, " ++
      "directly or indirectly"]
  | .interfaceHasSupertype .. =>
    ["interfaces extend other interfaces through their interface list"]
  | _ => []

def diagnostic (error : GraphError) : Diagnostic :=
  ⟨error.message, ⟨error.title, error.notes⟩, []⟩

end GraphError

namespace ClassDefinition

/-- The supertype of a class: the one it names, or the root. The root itself has none. -/
def supertype? (definition : ClassDefinition) (id : ClassId) : Option ClassId :=
  if id = ClassId.root then none else some (definition.superclass.getD ClassId.root)

end ClassDefinition

namespace Catalog

/-- The definition a class refers to. -/
def resolve (catalog : Catalog) (name : QualifiedName) (reference : ClassId) :
    Except GraphError ClassDefinition :=
  match catalog.definition? reference with
  | some definition => .ok definition
  | none => .error (.unresolved name (catalog.describeClass reference))

/-- Follows the enclosing classes outwards. The chain must end at a class that is not nested,
without a class coming twice; so it is no longer than there are classes, which bounds the walk. -/
def checkEnclosing (catalog : Catalog) (name : QualifiedName) :
    Nat → List ClassId → ClassScope → Except GraphError Unit
  | bound, visited, .nested outer =>
    if outer ∈ visited then .error (.circular name)
    else
      match bound with
      | 0 => .error (.circular name)
      | bound + 1 => do
        let definition ← catalog.resolve name outer
        checkEnclosing catalog name bound (outer :: visited) definition.scope
  | _, _, _ => .ok ()

/-- Checks the supertype of a class, and answers the classes that must come before it on that
account. -/
def checkSupertype (catalog : Catalog) (id : ClassId) (definition : ClassDefinition) :
    Except GraphError (List ClassId) := do
  if let some supertype := definition.superclass then
    let superDefinition ← catalog.resolve definition.name supertype
    if definition.isInterface then
      throw (.interfaceHasSupertype definition.name superDefinition.name)
  match definition.supertype? id with
  | none => return []
  | some supertype =>
    let superDefinition ← catalog.resolve definition.name supertype
    if superDefinition.isInterface then
      throw (.supertypeIsInterface definition.name superDefinition.name)
    return [supertype]

/-- Checks that everything a class lists as an interface is one. -/
def checkInterfaces (catalog : Catalog) (definition : ClassDefinition) :
    Except GraphError Unit :=
  definition.interfaces.forM fun interface => do
    let interfaceDefinition ← catalog.resolve definition.name interface
    if !interfaceDefinition.isInterface then
      throw (.notAnInterface definition.name interfaceDefinition.name)

/-- Checks all references of a class, and answers what must come before it. -/
def checkReferences (catalog : Catalog) (id : ClassId) (definition : ClassDefinition) :
    Except GraphError (Task ClassId) := do
  let supertype ← catalog.checkSupertype id definition
  catalog.checkInterfaces definition
  catalog.checkEnclosing definition.name catalog.classes.size [id] definition.scope
  return ⟨id, supertype ++ definition.interfaces⟩

/-- Checks classes in map order, each against the earlier ones of its name. -/
def checkClasses (catalog : Catalog) (earlier : List (ClassId × ClassDefinition)) :
    List (ClassId × ClassDefinition) → Except GraphError (List (Task ClassId))
  | [] => .ok []
  | (id, definition) :: rest => do
    if let some first := earlier.find? fun other => other.2.name = definition.name then
      throw (.duplicateName definition.name first.1 id)
    let task ← catalog.checkReferences id definition
    let tasks ← catalog.checkClasses (earlier ++ [(id, definition)]) rest
    return task :: tasks

/-- Checks that both sides of every box are defined. -/
def checkBoxes (catalog : Catalog) : Except GraphError Unit :=
  catalog.valueBoxes.entries.forM fun (box, value) => do
    match catalog.definition? box with
    | none =>
      throw
        (.unresolved (QualifiedName.parse (catalog.describeClass value))
          (catalog.describeClass box))
    | some definition =>
      let _ ← catalog.resolve definition.name value

/-- Checks that the root is a defined class on top of the hierarchy. -/
def checkRoot (catalog : Catalog) : Except GraphError Unit :=
  match catalog.definition? ClassId.root with
  | none => .error .missingRoot
  | some root =>
    if root.superclass.isSome || root.isInterface then .error (.rootHasSupertype root.name)
    else .ok ()

/-- The defined classes, each after its supertype and its interfaces. -/
def sortClasses (catalog : Catalog) : Except GraphError (List ClassId) := do
  catalog.checkRoot
  let tasks ← catalog.checkClasses [] catalog.definitions
  catalog.checkBoxes
  let (sorted, _) := Task.schedule ClassId.atMost tasks
  match catalog.definitions.find? fun entry => entry.1 ∉ sorted with
  | some (_, definition) => throw (.circular definition.name)
  | none => return sorted

end Catalog

end TypeRecords
