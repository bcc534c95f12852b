import TypeRecords.Record.Assembly

/-!
The type records of a whole module.
-/

namespace TypeRecords

namespace Generator

/-- Declares the records of all classes, so that they can point to each other, and generates them
in the same order. -/
def buildAll (generator : Generator) (classes : List ClassId) : Build Unit := do
  classes.forM fun id => discard (generator.declareRecord id)
  classes.forM fun id => discard (generator.generateRecord id)

end Generator

/-- The type records of all classes of a catalog, supertypes and interfaces first. -/
def generateModule (catalog : Catalog) (target : Target) : Except Failure Assembly := do
  let classes ← catalog.sortClasses
  match (Generator.mk catalog target).buildAll classes .empty with
  | .ok () assembly => return assembly
  | .error failure _ => throw failure

end TypeRecords
