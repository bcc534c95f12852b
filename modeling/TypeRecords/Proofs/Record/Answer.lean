import TypeRecords.Proofs.Class.Walk
import TypeRecords.Proofs.Layout
import TypeRecords.Record.Instance
import TypeRecords.Record.Reflection
import TypeRecords.Record.VirtualTable

/-!
What can be asked about a class of an accepted graph.

Owns the answers that no walk may prevent: the layout of instances, the tables of methods and the
reported name. Each is given, or refused with a reported error, and never ends in a fault. Together
with the walks themselves this is what `Catalog.sortClasses` guarantees for generating records.
-/

namespace TypeRecords

/-- Whether an operation ends without a fault: with an answer or with a reported error. -/
def Faultless {α : Type} (result : Except Failure α) : Prop :=
  ∀ fault, result ≠ .error (.fault fault)

namespace Faultless

variable {α β : Type}

theorem ok (value : α) : Faultless (.ok value) := by
  intro fault failed
  cases failed

theorem reported (error : RecordError) : Faultless (α := α) (.error (.reported error)) := by
  intro fault failed
  cases failed

theorem bind {result : Except Failure α} {next : α → Except Failure β}
    (first : Faultless result) (rest : ∀ value, result = .ok value → Faultless (next value)) :
    Faultless (result >>= next) := by
  cases result with
  | error failure =>
    intro fault failed
    exact first fault (by cases failed; rfl)
  | ok value => exact rest value rfl

/-- A question that cannot be refused is answered without a fault where it has an answer. -/
theorem lift {result : Except Fault α} (answered : ∃ value, result = .ok value) :
    Faultless (liftM result) := by
  obtain ⟨value, rfl⟩ := answered
  exact ok value

theorem mapM {question : α → Except Failure β} (each : ∀ item, Faultless (question item))
    (items : List α) : Faultless (items.mapM question) := by
  induction items with
  | nil => exact ok []
  | cons item rest inductionHypothesis =>
    rw [List.mapM_cons]
    refine (each item).bind fun answer _ => inductionHypothesis.bind fun others _ => ok _

end Faultless

/-! ## Layouts -/

theorem Target.pointerSize_eq (target : Target) :
    target.pointerSize = 4 ∨ target.pointerSize = 8 := by
  cases target <;> simp [pointerSize, architecture, Architecture.bitness]

theorem Scalar.size_eq (scalar : Scalar) (target : Target) :
    scalar.size target = 1 ∨ scalar.size target = 2 ∨ scalar.size target = 4 ∨
      scalar.size target = 8 := by
  have pointer := target.pointerSize_eq
  cases scalar <;> simp [size, pointer]

theorem isPowerOfTwo_pointerSize (target : Target) : isPowerOfTwo target.pointerSize = true := by
  rcases target.pointerSize_eq with size | size <;> rw [size] <;> decide

theorem isPowerOfTwo_size (scalar : Scalar) (target : Target) :
    isPowerOfTwo (scalar.size target) = true := by
  rcases scalar.size_eq target with size | size | size | size <;> rw [size] <;> decide

/-- The elements of an instance: the header and the fields in order. -/
def Target.bodyElements (target : Target) (fields : List FieldDefinition) : List Element :=
  ⟨target.headerSize, target.pointerSize⟩ ::
    fields.map fun field => field.type.scalar.element target

theorem aligned_bodyElements (target : Target) (fields : List FieldDefinition) :
    StructLayout.Aligned (target.bodyElements fields) := by
  refine List.forall_mem_cons.mpr ⟨isPowerOfTwo_pointerSize target, fun element member => ?_⟩
  obtain ⟨field, _, rfl⟩ := List.mem_map.mp member
  exact isPowerOfTwo_size field.type.scalar target

namespace Catalog

open Outcome

variable {catalog : Catalog} {sorted : List ClassId} {id : ClassId}

theorem exists_instanceFields (graph : catalog.SoundGraph) (order : catalog.ClassOrder sorted)
    (isDefined : catalog.IsDefined id) : ∃ fields, catalog.instanceFields id = .ok fields := by
  obtain ⟨chain, ancestry⟩ := exists_ancestry graph order isDefined
  rw [instanceFields, hierarchy_eq graph ancestry, ok_bind]
  have each : ∀ ancestor ∈ chain.reverse, ∃ fields, (do
      let definition ← catalog.definition ancestor
      return definition.fields) = .ok fields := by
    intro ancestor member
    obtain ⟨definition, defined⟩ := ancestry.isDefined_of_mem ancestor (List.mem_reverse.mp member)
    rw [definition_eq_ok.mpr defined]
    exact ⟨_, rfl⟩
  obtain ⟨fields, answered⟩ := exists_mapM_eq_ok each
  rw [answered]
  exact ⟨_, rfl⟩

theorem faultless_checkInterfaceFields (definition : ClassDefinition) :
    Faultless (checkInterfaceFields definition) := by
  unfold checkInterfaceFields
  split
  · exact .reported _
  · exact .ok _

theorem faultless_instanceLayout (graph : catalog.SoundGraph) (order : catalog.ClassOrder sorted)
    (isDefined : catalog.IsDefined id) (target : Target) :
    Faultless (catalog.instanceLayout target id) := by
  obtain ⟨definition, defined⟩ := isDefined
  unfold instanceLayout
  refine (Faultless.lift ⟨_, definition_eq_ok.mpr defined⟩).bind fun definition _ => ?_
  refine (faultless_checkInterfaceFields definition).bind fun _ _ => ?_
  refine (Faultless.lift (exists_instanceFields graph order ⟨_, defined⟩)).bind fun fields _ => ?_
  have laidOut := StructLayout.exists_buildFrom (aligned_bodyElements target fields) 0 1
  exact (Faultless.lift laidOut).bind fun _ _ => .ok _

/-! ## Tables of methods -/

theorem faultless_declaredMethod (method : MethodRef) :
    Faultless (catalog.declaredMethod method) := by
  unfold declaredMethod
  split
  · exact .ok _
  · exact .reported _

theorem faultless_requiredFunction (method : MethodRef) (definition : MethodDefinition) :
    Faultless (catalog.requiredFunction method definition) := by
  unfold requiredFunction
  split
  · exact .ok _
  · exact .reported _

theorem faultless_methodRecord (entry : DispatchEntry) :
    Faultless (catalog.methodRecord entry) := by
  unfold methodRecord entryPoint
  refine Faultless.bind ((faultless_declaredMethod _).bind fun definition _ => ?_) fun _ _ => .ok _
  split
  · exact .ok _
  · exact (faultless_requiredFunction _ _).bind fun _ _ => .ok _
  · exact (faultless_requiredFunction _ _).bind fun _ _ => .ok _

theorem faultless_sortDistinct (className : QualifiedName) (records : List MethodRecord) :
    Faultless (catalog.sortDistinct className records) := by
  unfold sortDistinct
  dsimp only
  split
  · exact .ok _
  · exact .reported _

theorem faultless_methodTable (graph : catalog.SoundGraph) (order : catalog.ClassOrder sorted)
    (isDefined : catalog.IsDefined id) : Faultless (catalog.methodTable id) := by
  obtain ⟨definition, defined⟩ := isDefined
  unfold methodTable
  refine (Faultless.lift ⟨_, definition_eq_ok.mpr defined⟩).bind fun definition _ => ?_
  split
  · exact .ok []
  · refine (Faultless.lift (exists_members graph order ⟨_, defined⟩)).bind fun members _ => ?_
    refine (Faultless.mapM faultless_methodRecord members).bind fun records _ => ?_
    exact faultless_sortDistinct definition.name records

theorem faultless_slotEntryPoint (method : MethodRef) :
    Faultless (catalog.slotEntryPoint method) := by
  unfold slotEntryPoint
  refine (faultless_declaredMethod _).bind fun definition _ => ?_
  split
  · exact .ok _
  · exact .ok _
  · exact (faultless_requiredFunction _ _).bind fun _ _ => .ok _

theorem faultless_virtualTable (graph : catalog.SoundGraph) (order : catalog.ClassOrder sorted)
    (isDefined : catalog.IsDefined id) : Faultless (catalog.virtualTable id) := by
  unfold virtualTable
  refine (Faultless.lift (exists_virtualSlots graph order isDefined)).bind fun slots _ => ?_
  refine Faultless.mapM (fun slot => ?_) slots
  exact (faultless_slotEntryPoint _).bind fun _ _ => .ok _

/-! ## Reported names -/

/-- A class and those around it, outwards. The last one is not nested. -/
inductive Enclosure (catalog : Catalog) : ClassDefinition → List ClassDefinition → Prop
  | outermost {definition : ClassDefinition}
      (notNested : ∀ outer, definition.scope ≠ .nested outer) :
      Enclosure catalog definition [definition]
  | inside {definition outerDefinition : ClassDefinition} {outer : ClassId}
      {chain : List ClassDefinition} (nested : definition.scope = .nested outer)
      (defined : catalog.definition? outer = some outerDefinition)
      (around : Enclosure catalog outerDefinition chain) :
      Enclosure catalog definition (definition :: chain)

namespace Enclosure

variable {definition : ClassDefinition} {chain : List ClassDefinition}

theorem exists_cons (enclosure : catalog.Enclosure definition chain) :
    ∃ further, chain = definition :: further := by
  cases enclosure with
  | outermost _ => exact ⟨[], rfl⟩
  | inside _ _ _ => exact ⟨_, rfl⟩

/-- The walk outwards lists the classes around a class, where its bound allows. -/
theorem enclosingWithin_eq (enclosure : catalog.Enclosure definition chain) {bound : Nat}
    (short : chain.length ≤ bound + 1) : catalog.enclosingWithin bound definition = .ok chain := by
  induction enclosure generalizing bound with
  | @outermost definition notNested =>
    unfold enclosingWithin
    split
    · rename_i outer nested
      exact absurd nested (notNested outer)
    · rfl
  | inside nested defined around inductionHypothesis =>
    obtain ⟨further, rfl⟩ := around.exists_cons
    cases bound with
    | zero => simp at short
    | succ rest =>
      unfold enclosingWithin
      rw [nested]
      dsimp only
      rw [definition_eq_ok.mpr defined, ok_bind, inductionHypothesis (Nat.le_of_succ_le_succ short)]
      rfl

end Enclosure

theorem EnclosedBy.exists_enclosure {scope : ClassScope} {outers : List ClassId}
    (around : catalog.EnclosedBy scope outers) {definition : ClassDefinition}
    (isScope : definition.scope = scope) :
    ∃ chain, catalog.Enclosure definition chain ∧ chain.length = outers.length + 1 := by
  induction around generalizing definition with
  | outermost notNested =>
    exact ⟨[definition], .outermost (isScope ▸ notNested), rfl⟩
  | nested defined _ inductionHypothesis =>
    obtain ⟨chain, enclosure, length⟩ := inductionHypothesis rfl
    exact ⟨definition :: chain, .inside isScope defined enclosure, congrArg Nat.succ length⟩

theorem SoundGraph.exists_enclosure (graph : catalog.SoundGraph) {definition : ClassDefinition}
    (defined : catalog.definition? id = some definition) :
    ∃ chain, catalog.Enclosure definition chain ∧ chain.length ≤ catalog.definitions.length := by
  obtain ⟨outers, around, distinct⟩ := graph.enclosing defined
  obtain ⟨chain, enclosure, length⟩ := around.exists_enclosure rfl
  have short := around.length_lt_of_nodup defined distinct
  exact ⟨chain, enclosure, by omega⟩

theorem exists_reflectDefinition (graph : catalog.SoundGraph) {definition : ClassDefinition}
    (defined : catalog.definition? id = some definition) :
    ∃ name, catalog.reflectDefinition definition = .ok name := by
  obtain ⟨chain, enclosure, short⟩ := graph.exists_enclosure defined
  have usual := length_definitions_lt_walkBound catalog
  have walked := enclosure.enclosingWithin_eq (by omega : chain.length ≤ catalog.walkBound + 1)
  unfold reflectDefinition
  split
  · exact ⟨_, rfl⟩
  · exact ⟨_, rfl⟩
  · rw [walked, ok_bind]
    dsimp only
    split <;> exact ⟨_, rfl⟩
  · rw [walked, ok_bind]
    dsimp only
    split <;> exact ⟨_, rfl⟩

/-- The class whose name is reported is defined: a box has a defined class inside. -/
theorem SoundGraph.isDefined_named (graph : catalog.SoundGraph) (isDefined : catalog.IsDefined id) :
    catalog.IsDefined ((catalog.boxedClass? id).getD id) := by
  cases boxed : catalog.boxedClass? id with
  | none => exact isDefined
  | some value => exact (graph.boxes boxed).2

theorem exists_reflectedName (graph : catalog.SoundGraph) (isDefined : catalog.IsDefined id) :
    ∃ name, catalog.reflectedName id = .ok name := by
  obtain ⟨definition, defined⟩ := graph.isDefined_named isDefined
  rw [reflectedName, definition_eq_ok.mpr defined, ok_bind]
  exact exists_reflectDefinition graph defined

/-! ## Main result -/

/-- The walks from a class, cut off at a bound, do not reach it: they have the same answers as
without it. -/
structure BoundUnreached (catalog : Catalog) (id : ClassId) (definition : ClassDefinition)
    (bound : Nat) : Prop where
  hierarchy : ∃ chain, catalog.ancestorsWithin bound id = .ok chain ∧
    catalog.hierarchy id = .ok chain.reverse
  findMethod : ∀ name, ∃ method, catalog.findMethodWithin name bound id = .ok method ∧
    catalog.findMethod id name = .ok method
  virtualSlots : ∃ slots, catalog.virtualSlotsWithin bound id = .ok slots ∧
    catalog.virtualSlots id = .ok slots
  interfaces : ∃ found, catalog.addInterfacesOf bound [] id = .ok found ∧
    catalog.interfaces id = .ok found
  listed : ∀ found, ∀ interface ∈ definition.interfaces, ∃ result,
    catalog.addInterface bound found interface = .ok result ∧
      catalog.addInterface catalog.walkBound found interface = .ok result
  enclosing : ∃ chain, catalog.enclosingWithin bound definition = .ok chain ∧
    catalog.enclosingWithin catalog.walkBound definition = .ok chain

/-- Everything that is asked about a class is answered, and no walk is long. -/
structure Answerable (catalog : Catalog) (id : ClassId) (definition : ClassDefinition) : Prop where
  hierarchy : ∃ chain, catalog.hierarchy id = .ok chain ∧ chain.Nodup ∧
    (∀ ancestor ∈ chain, catalog.IsDefined ancestor) ∧ chain.head? = some ClassId.root ∧
    chain.getLast? = some id
  interfaces : ∃ found, catalog.interfaces id = .ok found
  findMethod : ∀ name, ∃ method, catalog.findMethod id name = .ok method
  virtualSlots : ∃ slots, catalog.virtualSlots id = .ok slots
  interfaceMembers : ∃ entries, catalog.interfaceMembers id = .ok entries
  members : ∃ entries, catalog.members id = .ok entries
  instanceLayout : ∀ target, Faultless (catalog.instanceLayout target id)
  methodTable : Faultless (catalog.methodTable id)
  virtualTable : Faultless (catalog.virtualTable id)
  reflectedName : ∃ name, catalog.reflectedName id = .ok name
  /-- Every path upwards over supertypes and interfaces is short. -/
  pathLength : ∀ path, (id :: path).IsChain (fun later earlier => catalog.Precedes earlier later) →
    (id :: path).length ≤ catalog.definitions.length
  /-- Every path outwards over enclosing classes is short. -/
  nestingLength : ∀ path, (id :: path).IsChain catalog.NestedIn →
    (id :: path).length ≤ catalog.definitions.length
  boundUnreached : ∀ bound, catalog.definitions.length ≤ bound →
    catalog.BoundUnreached id definition bound

theorem boundUnreached (graph : catalog.SoundGraph) (order : catalog.ClassOrder sorted)
    {definition : ClassDefinition} (defined : catalog.definition? id = some definition)
    {bound : Nat} (enough : catalog.definitions.length ≤ bound) :
    catalog.BoundUnreached id definition bound := by
  obtain ⟨chain, ancestry⟩ := exists_ancestry graph order ⟨definition, defined⟩
  have short := ancestry.length_le graph
  have usual := length_definitions_lt_walkBound catalog
  refine ⟨⟨chain, ancestorsWithin_eq ancestry (by omega), hierarchy_eq graph ancestry⟩,
    fun name => ⟨_, findMethodWithin_eq ancestry name (by omega),
      findMethodWithin_eq ancestry name (by omega)⟩, ?_, ?_, ?_, ?_⟩
  · cases isInterface : definition.isInterface with
    | true =>
      have someClass := order.idxOf_lt ⟨definition, defined⟩
      exact ⟨[], virtualSlotsWithin_eq_nil defined isInterface (by omega),
        virtualSlotsWithin_eq_nil defined isInterface (by omega)⟩
    | false =>
      have proper := isProper_of_isInterface_eq_false defined isInterface
      exact ⟨_, virtualSlotsWithin_eq graph ancestry proper (by omega),
        virtualSlotsWithin_eq graph ancestry proper (by omega)⟩
  · obtain ⟨found, collected, _⟩ := exists_addInterfacesOf graph order ancestry []
    exact ⟨found, collected _ (by omega), collected _ (by omega)⟩
  · intro found interface listed
    have isDefined := graph.isDefined_of_precedes ⟨definition, defined, .inr listed⟩
    have place := order.idxOf_lt isDefined
    obtain ⟨result, added, _⟩ := exists_addInterface graph order isDefined found
    exact ⟨result, added _ (by omega), added _ (by omega)⟩
  · obtain ⟨around, enclosure, short⟩ := graph.exists_enclosure defined
    exact ⟨_, enclosure.enclosingWithin_eq (by omega), enclosure.enclosingWithin_eq (by omega)⟩

/-- Every walk from a defined class of an accepted graph ends with an answer, without meeting an
undefined class and before its bound. -/
theorem answerable_of_sortClasses {catalog : Catalog} {sorted : List ClassId}
    (accepted : catalog.sortClasses = .ok sorted) {id : ClassId} {definition : ClassDefinition}
    (defined : catalog.definition? id = some definition) : catalog.Answerable id definition := by
  have graph := soundGraph_of_sortClasses accepted
  have order := classOrder_of_sortClasses accepted
  have isDefined : catalog.IsDefined id := ⟨definition, defined⟩
  obtain ⟨chain, ancestry⟩ := exists_ancestry graph order isDefined
  obtain ⟨found, collected, _⟩ := exists_interfaces graph order isDefined
  refine {
    hierarchy := ⟨chain.reverse, hierarchy_eq graph ancestry, ?_, ?_, ?_, ?_⟩
    interfaces := ⟨found, collected⟩
    findMethod := exists_findMethod graph order isDefined
    virtualSlots := exists_virtualSlots graph order isDefined
    interfaceMembers := exists_interfaceMembers graph order isDefined
    members := exists_members graph order isDefined
    instanceLayout := faultless_instanceLayout graph order isDefined
    methodTable := faultless_methodTable graph order isDefined
    virtualTable := faultless_virtualTable graph order isDefined
    reflectedName := exists_reflectedName graph isDefined
    pathLength := ?_
    nestingLength := ?_
    boundUnreached := fun bound enough => boundUnreached graph order defined enough }
  · exact List.nodup_reverse.mpr (ancestry.nodup graph)
  · exact fun ancestor member => ancestry.isDefined_of_mem ancestor (List.mem_reverse.mp member)
  · rw [List.head?_reverse, ancestry.getLast?_eq]
  · rw [List.getLast?_reverse, ancestry.head?_eq]
  · intro path linked
    refine length_le_of_isChain isDefined (fun related => graph.isDefined_of_precedes related) ?_
      linked
    intro other circle
    exact graph.acyclic other (Relation.transGen_swap.mp circle)
  · intro path linked
    exact length_le_of_isChain isDefined (fun related => graph.isDefined_of_nestedIn related)
      graph.nestedIn_acyclic linked

theorem shapes_answerable :
    ∃ definition, shapes.definition? ⟨4⟩ = some definition ∧ shapes.Answerable ⟨4⟩ definition :=
  ⟨_, rfl, answerable_of_sortClasses shapes_sortClasses rfl⟩

end Catalog

end TypeRecords
