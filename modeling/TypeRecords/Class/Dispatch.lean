import TypeRecords.Class.Graph

/-!
Which method answers a call.

Owns the walks over supertypes and interfaces and the tables of members they give: the virtual
slots of a class, the members of an interface, and all members a class can be asked for. The walks
are meant for a class graph that `Catalog.sortClasses` accepts. There no chain is longer than the
number of classes, so the bound `Catalog.walkBound` on their depth is never reached.
-/

namespace TypeRecords

/-- A member visible on a class, with the method that implements it there. -/
structure DispatchEntry where
  name : String
  implementation : MethodRef
deriving DecidableEq, Repr, Inhabited

namespace Catalog

/-- One more step than any chain of supertypes or interfaces without repetition has. -/
def walkBound (catalog : Catalog) : Nat := catalog.classes.size + 2

/-- The supertype of a class. Only the root has none, whether it is defined or not. -/
def supertype? (catalog : Catalog) (id : ClassId) : Except Fault (Option ClassId) :=
  if id = ClassId.root then .ok none
  else (catalog.definition id).map fun definition => definition.supertype? id

/-! ## Supertypes -/

/-- The supertypes of a class from the class itself upwards. -/
def ancestorsWithin (catalog : Catalog) : Nat → ClassId → Except Fault (List ClassId)
  | 0, id => .error (.endlessWalk id)
  | bound + 1, id => do
    match ← catalog.supertype? id with
    | none => return [id]
    | some supertype => return id :: (← catalog.ancestorsWithin bound supertype)

/-- The supertypes of a class from the root down to the class itself. -/
def hierarchy (catalog : Catalog) (id : ClassId) : Except Fault (List ClassId) :=
  (catalog.ancestorsWithin catalog.walkBound id).map List.reverse

/-- The first class from `id` upwards that declares the method. -/
def findMethodWithin (catalog : Catalog) (name : String) :
    Nat → ClassId → Except Fault (Option MethodRef)
  | 0, id => .error (.endlessWalk id)
  | bound + 1, id => do
    let definition ← catalog.definition id
    match definition.methodIndex? name with
    | some index => return some ⟨id, index⟩
    | none =>
      match ← catalog.supertype? id with
      | none => return none
      | some supertype => catalog.findMethodWithin name bound supertype

/-- The most derived method of that name on a class and its supertypes. -/
def findMethod (catalog : Catalog) (id : ClassId) (name : String) :
    Except Fault (Option MethodRef) :=
  catalog.findMethodWithin name catalog.walkBound id

/-! ## Interfaces -/

/-- Adds an interface and behind it its own super-interfaces, leaving out those already found. -/
def addInterface (catalog : Catalog) :
    Nat → List ClassId → ClassId → Except Fault (List ClassId)
  | 0, _, interface => .error (.endlessWalk interface)
  | bound + 1, found, interface =>
    if interface ∈ found then .ok found
    else do
      let definition ← catalog.definition interface
      definition.interfaces.foldlM (catalog.addInterface bound) (found ++ [interface])

/-- Adds the interfaces of a class and then those of its supertypes. An interface has no
supertypes to continue with. -/
def addInterfacesOf (catalog : Catalog) :
    Nat → List ClassId → ClassId → Except Fault (List ClassId)
  | 0, _, id => .error (.endlessWalk id)
  | bound + 1, found, id => do
    let definition ← catalog.definition id
    let found ← definition.interfaces.foldlM (catalog.addInterface catalog.walkBound) found
    if definition.isInterface then return found
    match ← catalog.supertype? id with
    | none => return found
    | some supertype => catalog.addInterfacesOf bound found supertype

/-- The interfaces of a class without repetition, in order of first occurrence: each listed
interface before its super-interfaces, and those of the class before those of its supertype. -/
def interfaces (catalog : Catalog) (id : ClassId) : Except Fault (List ClassId) :=
  catalog.addInterfacesOf catalog.walkBound [] id

/-! ## Tables of members -/

/-- Lets a declared method take part in the virtual slots: it takes over the slot of its name,
or opens a new one if it may be overridden. -/
def overrideSlot (owner : ClassId) (slots : List DispatchEntry)
    (declared : MethodDefinition × Nat) : List DispatchEntry :=
  let (method, index) := declared
  let entry : DispatchEntry := ⟨method.name, ⟨owner, index⟩⟩
  if slots.any fun slot => slot.name = method.name then
    slots.map fun slot => if slot.name = method.name then entry else slot
  else if method.overridable then slots ++ [entry]
  else slots

/-- The virtual slots of a class, with a bound on the walk. -/
def virtualSlotsWithin (catalog : Catalog) :
    Nat → ClassId → Except Fault (List DispatchEntry)
  | 0, id => .error (.endlessWalk id)
  | bound + 1, id => do
    let definition ← catalog.definition id
    if definition.isInterface then return []
    let inherited ←
      match ← catalog.supertype? id with
      | none => pure []
      | some supertype => catalog.virtualSlotsWithin bound supertype
    return definition.methods.zipIdx.foldl (overrideSlot id) inherited

/-- The virtual slots of a class: those of its supertype in their order, then the members it
opens itself. An interface has none. -/
def virtualSlots (catalog : Catalog) (id : ClassId) : Except Fault (List DispatchEntry) :=
  catalog.virtualSlotsWithin catalog.walkBound id

/-- Whether a table has a member of that name. -/
def hasMember (entries : List DispatchEntry) (name : String) : Bool :=
  entries.any fun entry => entry.name = name

/-- Adds the methods an interface declares, leaving out names already present. -/
def addDeclared (interface : ClassId) (entries : List DispatchEntry)
    (declared : MethodDefinition × Nat) : List DispatchEntry :=
  if hasMember entries declared.1.name then entries
  else entries ++ [⟨declared.1.name, ⟨interface, declared.2⟩⟩]

/-- The members of an interface and of its super-interfaces, each with the method of the first of
them that declares it. -/
def interfaceMembers (catalog : Catalog) (interface : ClassId) :
    Except Fault (List DispatchEntry) := do
  let inherited ← catalog.interfaces interface
  (interface :: inherited).foldlM
    (fun entries id => do
      let definition ← catalog.definition id
      return definition.methods.zipIdx.foldl (addDeclared id) entries)
    []

/-- Adds a member of an interface to the members of a class: implemented by the class, if it or a
supertype has a method of the name, and by the interface itself otherwise. -/
def addInterfaceMember (catalog : Catalog) (id : ClassId) (isInterface : Bool)
    (entries : List DispatchEntry) (member : DispatchEntry) :
    Except Fault (List DispatchEntry) := do
  if hasMember entries member.name then return entries
  let own ← if isInterface then pure none else catalog.findMethod id member.name
  return entries ++ [⟨member.name, own.getD member.implementation⟩]

/-- All members a class can be asked for: its virtual slots, then the members of its interfaces
that have no slot. -/
def members (catalog : Catalog) (id : ClassId) : Except Fault (List DispatchEntry) := do
  let slots ← catalog.virtualSlots id
  let definition ← catalog.definition id
  let interfaces ← catalog.interfaces id
  let offered ← interfaces.mapM catalog.interfaceMembers
  offered.flatten.foldlM (catalog.addInterfaceMember id definition.isInterface) slots

end Catalog

end TypeRecords
