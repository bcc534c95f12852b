import TypeRecords.Record.Members

/-!
The virtual table of a class.

Its slots stand in the order of the class's virtual slots, because compiled code finds them by
position.
-/

namespace TypeRecords

/-- A slot of a virtual table. -/
structure VirtualSlot where
  name : String
  implementation : MethodRef
  /-- Absent where the member cannot be called through the table. -/
  entryPoint : Option FunctionId
deriving DecidableEq, Repr, Inhabited

namespace Catalog

/-- What a slot stores for an implementing method: its function, if it is a concrete method. An
external method is only reachable by its own calling convention. -/
def slotEntryPoint (catalog : Catalog) (method : MethodRef) :
    Except Failure (Option FunctionId) := do
  let definition ← catalog.declaredMethod method
  match definition.implementation with
  | .abstract | .external => return none
  | .concrete => return some (← catalog.requiredFunction method definition)

/-- The virtual table of a class. -/
def virtualTable (catalog : Catalog) (id : ClassId) : Except Failure (List VirtualSlot) := do
  let slots ← catalog.virtualSlots id
  slots.mapM fun slot => do
    let entryPoint ← catalog.slotEntryPoint slot.implementation
    return ⟨slot.name, slot.implementation, entryPoint⟩

end Catalog

/-- The array of the entry points of a virtual table. -/
def VirtualSlot.tableConstant (slots : List VirtualSlot) : Constant :=
  .array .ptr (slots.map fun slot => .functionAddressOrNull slot.entryPoint)

end TypeRecords
