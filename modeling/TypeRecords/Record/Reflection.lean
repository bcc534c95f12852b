import TypeRecords.Class.Dispatch

/-!
The name of a class as the runtime reports it.

A class inside packages alone has a package and a name relative to it; a class inside a function
body has its simple name alone, and an anonymous class has no name.
-/

namespace TypeRecords

/-- The two parts of a reported name. -/
structure ReflectedName where
  package : Option String
  relative : Option String
deriving DecidableEq, Repr, Inhabited

namespace Catalog

/-- A definition and those of its enclosing classes outwards. -/
def enclosingWithin (catalog : Catalog) :
    Nat → ClassDefinition → Except Fault (List ClassDefinition)
  | bound, definition =>
    match definition.scope with
    | .nested outer =>
      match bound with
      | 0 => .error (.endlessWalk outer)
      | bound + 1 => do
        let outerDefinition ← catalog.definition outer
        return definition :: (← catalog.enclosingWithin bound outerDefinition)
    | _ => .ok [definition]

/-- The name reported for a class of this definition. -/
def reflectDefinition (catalog : Catalog) (definition : ClassDefinition) :
    Except Fault ReflectedName := do
  let simple := definition.name.simpleName
  match definition.scope with
  | .anonymous => return ⟨none, none⟩
  | .functionBody => return ⟨none, some simple⟩
  | .topLevel | .nested _ =>
    let chain ← catalog.enclosingWithin catalog.walkBound definition
    let outermost := chain.getLastD definition
    match outermost.scope with
    | .topLevel =>
      let simpleNames := chain.reverse.map fun enclosing => enclosing.name.simpleName
      return ⟨some (".".intercalate outermost.name.parentParts),
        some (".".intercalate simpleNames)⟩
    | _ => return ⟨none, some simple⟩

/-- The name reported for a class. A box reports the name of the class inside. -/
def reflectedName (catalog : Catalog) (id : ClassId) : Except Fault ReflectedName := do
  let definition ← catalog.definition ((catalog.boxedClass? id).getD id)
  catalog.reflectDefinition definition

end Catalog

end TypeRecords
