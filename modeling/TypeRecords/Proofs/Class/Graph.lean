import Mathlib.Data.List.Pairwise
import Mathlib.Data.List.Permutation
import TypeRecords.Class.Graph
import TypeRecords.Proofs.Outcome
import TypeRecords.Proofs.Schedule

/-!
The class graphs that are accepted, and the order they get.

Owns the description of a sound class graph by its relations alone: supertypes, interfaces,
enclosing classes and boxes. `Catalog.sortClasses` accepts exactly the sound graphs, and the order
it answers has every defined class once and behind its supertype and its interfaces.

The checks of single classes are inverted one by one. Circles of supertypes and interfaces are not
seen by any of them; these show as a remainder of the schedule.
-/

namespace TypeRecords

/-- The classes that have to come before a class: its supertype and its interfaces. -/
def ClassDefinition.predecessors (definition : ClassDefinition) (id : ClassId) : List ClassId :=
  (definition.supertype? id).toList ++ definition.interfaces

namespace Catalog

open Outcome

variable {catalog : Catalog}

/-! ## The relations between classes -/

/-- Whether a class is known with its definition. -/
def IsDefined (catalog : Catalog) (id : ClassId) : Prop :=
  ∃ definition, catalog.definition? id = some definition

/-- One class is the supertype of another, be it named or the root, or one of its interfaces. -/
def Precedes (catalog : Catalog) (earlier later : ClassId) : Prop :=
  ∃ definition, catalog.definition? later = some definition ∧
    (definition.supertype? later = some earlier ∨ earlier ∈ definition.interfaces)

/-- The defined classes around a class of this scope, from the inside outwards. The last of them
is not nested itself. -/
inductive EnclosedBy (catalog : Catalog) : ClassScope → List ClassId → Prop
  | outermost {scope : ClassScope} (notNested : ∀ outer, scope ≠ .nested outer) :
      EnclosedBy catalog scope []
  | nested {outer : ClassId} {definition : ClassDefinition} {further : List ClassId}
      (defined : catalog.definition? outer = some definition)
      (around : EnclosedBy catalog definition.scope further) :
      EnclosedBy catalog (.nested outer) (outer :: further)

/-- A class graph without defects. -/
structure SoundGraph (catalog : Catalog) : Prop where
  root : ∃ root, catalog.definition? ClassId.root = some root ∧ root.isInterface = false ∧
    root.superclass = none
  namesDistinct : ∀ {first second : ClassId} {firstDefinition secondDefinition : ClassDefinition},
    catalog.definition? first = some firstDefinition →
    catalog.definition? second = some secondDefinition →
    firstDefinition.name = secondDefinition.name → first = second
  supertypes : ∀ {id supertype : ClassId} {definition : ClassDefinition},
    catalog.definition? id = some definition → definition.superclass = some supertype →
    definition.isInterface = false ∧
      ∃ super, catalog.definition? supertype = some super ∧ super.isInterface = false
  interfaces : ∀ {id interface : ClassId} {definition : ClassDefinition},
    catalog.definition? id = some definition → interface ∈ definition.interfaces →
    ∃ listed, catalog.definition? interface = some listed ∧ listed.isInterface = true
  enclosing : ∀ {id : ClassId} {definition : ClassDefinition},
    catalog.definition? id = some definition →
    ∃ outers, catalog.EnclosedBy definition.scope outers ∧ (id :: outers).Nodup
  boxes : ∀ {box value : ClassId}, catalog.boxedClass? box = some value →
    catalog.IsDefined box ∧ catalog.IsDefined value
  acyclic : ∀ id, ¬ Relation.TransGen catalog.Precedes id id

/-- A list of the defined classes in which each stands behind its supertype and its interfaces. -/
structure ClassOrder (catalog : Catalog) (sorted : List ClassId) : Prop where
  distinct : sorted.Nodup
  complete : ∀ id, id ∈ sorted ↔ catalog.IsDefined id
  behind : ∀ {earlier later : ClassId}, catalog.Precedes earlier later →
    sorted.idxOf earlier < sorted.idxOf later

theorem mem_predecessors {definition : ClassDefinition} {id earlier : ClassId} :
    earlier ∈ definition.predecessors id ↔
      definition.supertype? id = some earlier ∨ earlier ∈ definition.interfaces := by
  rw [ClassDefinition.predecessors, List.mem_append, Option.mem_toList]

/-! ## The defined classes -/

theorem mem_definitions {id : ClassId} {definition : ClassDefinition} :
    (id, definition) ∈ catalog.definitions ↔ catalog.definition? id = some definition := by
  rw [definitions, List.mem_filterMap, definition?, Option.bind_eq_some_iff]
  constructor
  · rintro ⟨⟨key, entry⟩, member, found⟩
    obtain ⟨known, isDefinition, same⟩ := Option.map_eq_some_iff.mp found
    cases same
    exact ⟨entry, OrderedMap.find?_eq_some_iff.mpr member, isDefinition⟩
  · rintro ⟨entry, found, isDefinition⟩
    exact ⟨(id, entry), OrderedMap.find?_eq_some_iff.mp found, by simp [isDefinition]⟩

/-- The defined classes keep the order of the map. -/
theorem definitions_ids_sublist (catalog : Catalog) :
    (catalog.definitions.map Prod.fst).Sublist catalog.classes.keys := by
  have kept : ∀ entries : List (ClassId × ClassEntry),
      ((entries.filterMap fun entry =>
        entry.2.definition?.map fun definition => (entry.1, definition)).map Prod.fst).Sublist
        (entries.map Prod.fst) := by
    intro entries
    induction entries with
    | nil => exact .slnil
    | cons entry rest inductionHypothesis =>
      cases isDefinition : entry.2.definition? with
      | none => simpa [isDefinition] using inductionHypothesis.cons entry.1
      | some definition => simpa [isDefinition] using inductionHypothesis.cons_cons entry.1
  exact kept _

theorem definitions_ids_nodup (catalog : Catalog) :
    (catalog.definitions.map Prod.fst).Nodup :=
  (definitions_ids_sublist catalog).nodup catalog.classes.keysDistinct

theorem length_definitions_le (catalog : Catalog) :
    catalog.definitions.length ≤ catalog.classes.size :=
  List.length_filterMap_le _ _

/-- A list of distinct defined classes is no longer than there are defined classes. -/
theorem length_le_of_nodup {ids : List ClassId} (distinct : ids.Nodup)
    (defined : ∀ id ∈ ids, catalog.IsDefined id) : ids.length ≤ catalog.definitions.length := by
  have inside : ids ⊆ catalog.definitions.map Prod.fst := by
    intro id member
    obtain ⟨definition, found⟩ := defined id member
    exact List.mem_map.mpr ⟨(id, definition), mem_definitions.mpr found, rfl⟩
  simpa using (distinct.subperm inside).length_le

/-! ## The checks of one class -/

theorem resolve_eq_ok {name : QualifiedName} {reference : ClassId} {definition : ClassDefinition} :
    catalog.resolve name reference = .ok definition ↔
      catalog.definition? reference = some definition := by
  rw [resolve]
  cases catalog.definition? reference <;> simp

theorem checkSupertype_eq_ok {id : ClassId} {definition : ClassDefinition} {before : List ClassId} :
    catalog.checkSupertype id definition = .ok before ↔
      (∀ supertype, definition.superclass = some supertype →
        definition.isInterface = false ∧ catalog.IsDefined supertype) ∧
      (∀ supertype, definition.supertype? id = some supertype →
        ∃ super, catalog.definition? supertype = some super ∧ super.isInterface = false) ∧
      (definition.supertype? id).toList = before := by
  unfold checkSupertype
  cases named : definition.superclass with
  | none =>
    cases above : definition.supertype? id with
    | none => simp [pure_eq_ok]
    | some supertype =>
      simp only [bind_eq_ok, resolve_eq_ok, guard_eq_ok, pure_eq_ok]
      constructor
      · rintro ⟨super, found, proper, rfl⟩
        exact ⟨by simp, by simp [found, proper], rfl⟩
      · rintro ⟨_, proper, same⟩
        obtain ⟨super, found, isProper⟩ := proper supertype rfl
        exact ⟨super, found, isProper, same⟩
  | some named =>
    cases above : definition.supertype? id with
    | none =>
      simp only [bind_eq_ok, resolve_eq_ok, guard_eq_ok, pure_eq_ok]
      constructor
      · rintro ⟨super, found, proper, rfl⟩
        exact ⟨by simp [proper, IsDefined, found], by simp, rfl⟩
      · rintro ⟨explicit, _, same⟩
        obtain ⟨proper, super, found⟩ := explicit _ rfl
        exact ⟨super, found, proper, same⟩
    | some supertype =>
      simp only [bind_eq_ok, resolve_eq_ok, guard_eq_ok, pure_eq_ok]
      constructor
      · rintro ⟨explicit, explicitFound, proper, super, found, superProper, rfl⟩
        exact ⟨by simp [proper, IsDefined, explicitFound], by simp [found, superProper], rfl⟩
      · rintro ⟨explicit, implicit, same⟩
        obtain ⟨proper, explicitSuper, explicitFound⟩ := explicit _ rfl
        obtain ⟨super, found, superProper⟩ := implicit supertype rfl
        exact ⟨explicitSuper, explicitFound, proper, super, found, superProper, same⟩

theorem checkInterfaces_eq_ok {definition : ClassDefinition} :
    catalog.checkInterfaces definition = .ok () ↔
      ∀ interface ∈ definition.interfaces,
        ∃ listed, catalog.definition? interface = some listed ∧ listed.isInterface = true := by
  unfold checkInterfaces
  rw [forM_eq_ok]
  simp only [bind_eq_ok, resolve_eq_ok, check_eq_ok, Bool.not_eq_false']

/-- The walk outwards ends well exactly where the classes around are defined and new, and are not
more than the bound. -/
theorem checkEnclosing_eq_ok {name : QualifiedName} {bound : Nat} {visited : List ClassId}
    {scope : ClassScope} :
    catalog.checkEnclosing name bound visited scope = .ok () ↔
      ∃ outers, catalog.EnclosedBy scope outers ∧ outers.Nodup ∧
        (∀ outer ∈ outers, outer ∉ visited) ∧ outers.length ≤ bound := by
  fun_induction checkEnclosing catalog name bound visited scope with
  | case1 bound visited outer repeated =>
    constructor
    · intro succeeded
      cases succeeded
    · rintro ⟨_, around, _, fresh, _⟩
      cases around with
      | outermost notNested => exact absurd rfl (notNested outer)
      | nested defined around => exact absurd repeated (fresh outer (by simp))
  | case2 visited outer fresh =>
    constructor
    · intro succeeded
      cases succeeded
    · rintro ⟨_, around, _, _, short⟩
      cases around with
      | outermost notNested => exact absurd rfl (notNested outer)
      | nested defined around => simp at short
  | case3 visited outer fresh bound inductionHypothesis =>
    -- The outer class joins the visited ones, so being new and being distinct trade places.
    simp only [bind_eq_ok, resolve_eq_ok, inductionHypothesis]
    constructor
    · rintro ⟨definition, defined, further, around, distinct, new, short⟩
      refine ⟨outer :: further, .nested defined around, ?_, ?_, by simpa using short⟩
      · exact List.nodup_cons.mpr ⟨fun again => new outer again (by simp), distinct⟩
      · rintro other (_ | ⟨_, member⟩)
        · exact fresh
        · exact fun old => new other member (List.mem_cons_of_mem _ old)
    · rintro ⟨_, around, distinct, new, short⟩
      cases around with
      | outermost notNested => exact absurd rfl (notNested outer)
      | nested defined around =>
        rw [List.nodup_cons] at distinct
        refine ⟨_, defined, _, around, distinct.2, ?_, by simpa using short⟩
        intro other member old
        rcases List.mem_cons.mp old with rfl | old
        · exact distinct.1 member
        · exact new other (List.mem_cons_of_mem _ member) old
  | case4 bound visited scope notNested =>
    refine ⟨fun _ => ⟨[], .outermost fun outer same => notNested outer same, ?_⟩, fun _ => rfl⟩
    simp

/-- What the checks of one class ask for. -/
structure SoundReferences (catalog : Catalog) (id : ClassId) (definition : ClassDefinition) :
    Prop where
  named : ∀ supertype, definition.superclass = some supertype →
    definition.isInterface = false ∧ catalog.IsDefined supertype
  above : ∀ supertype, definition.supertype? id = some supertype →
    ∃ super, catalog.definition? supertype = some super ∧ super.isInterface = false
  listed : ∀ interface ∈ definition.interfaces,
    ∃ listed, catalog.definition? interface = some listed ∧ listed.isInterface = true
  around : ∃ outers, catalog.EnclosedBy definition.scope outers ∧ outers.Nodup ∧
    (∀ outer ∈ outers, outer ∉ [id]) ∧ outers.length ≤ catalog.classes.size

/-- The task of putting a class behind what has to come before it. -/
def orderTask (entry : ClassId × ClassDefinition) : Task ClassId :=
  ⟨entry.1, entry.2.predecessors entry.1⟩

theorem checkReferences_eq_ok {id : ClassId} {definition : ClassDefinition} {task : Task ClassId} :
    catalog.checkReferences id definition = .ok task ↔
      catalog.SoundReferences id definition ∧ orderTask (id, definition) = task := by
  unfold checkReferences
  simp only [bind_eq_ok, pure_eq_ok]
  constructor
  · rintro ⟨before, supertype, ⟨⟩, interfaces, ⟨⟩, enclosing, rfl⟩
    obtain ⟨named, above, rfl⟩ := checkSupertype_eq_ok.mp supertype
    exact ⟨⟨named, above, checkInterfaces_eq_ok.mp interfaces, checkEnclosing_eq_ok.mp enclosing⟩,
      rfl⟩
  · rintro ⟨sound, rfl⟩
    exact ⟨_, checkSupertype_eq_ok.mpr ⟨sound.named, sound.above, rfl⟩,
      (), checkInterfaces_eq_ok.mpr sound.listed, (), checkEnclosing_eq_ok.mpr sound.around, rfl⟩

/-! ## The checks of all classes -/

theorem checkClasses_eq_ok {earlier rest : List (ClassId × ClassDefinition)}
    {tasks : List (Task ClassId)} :
    catalog.checkClasses earlier rest = .ok tasks ↔
      (∀ entry ∈ rest, catalog.SoundReferences entry.1 entry.2) ∧
      (∀ first ∈ earlier, ∀ second ∈ rest, first.2.name ≠ second.2.name) ∧
      rest.Pairwise (fun first second => first.2.name ≠ second.2.name) ∧
      rest.map orderTask = tasks := by
  induction rest generalizing earlier tasks with
  | nil => simp [checkClasses]
  | cons entry rest inductionHypothesis =>
    obtain ⟨id, definition⟩ := entry
    unfold checkClasses
    cases clash : earlier.find? fun other => other.2.name = definition.name with
    | some first =>
      constructor
      · intro succeeded
        cases succeeded
      · rintro ⟨_, apart, _⟩
        have sameName : first.2.name = definition.name := by simpa using List.find?_some clash
        have differs := apart first (List.mem_of_find?_eq_some clash) (id, definition) (by simp)
        exact absurd sameName differs
    | none =>
      have fresh : ∀ first ∈ earlier, first.2.name ≠ definition.name := by
        simpa using List.find?_eq_none.mp clash
      simp only [bind_eq_ok, pure_eq_ok, checkReferences_eq_ok, inductionHypothesis]
      constructor
      · rintro ⟨_, ⟨sound, rfl⟩, _, ⟨others, apart, distinct, rfl⟩, rfl⟩
        refine ⟨List.forall_mem_cons.mpr ⟨sound, others⟩, ?_, ?_, rfl⟩
        · intro first member second laterMember
          rcases List.mem_cons.mp laterMember with rfl | laterMember
          · exact fresh first member
          · exact apart first (List.mem_append_left _ member) second laterMember
        · refine List.pairwise_cons.mpr ⟨fun second member => ?_, distinct⟩
          exact apart (id, definition) (by simp) second member
      · rintro ⟨sound, apart, distinct, rfl⟩
        rw [List.forall_mem_cons] at sound
        rw [List.pairwise_cons] at distinct
        refine ⟨_, ⟨sound.1, rfl⟩, _, ⟨sound.2, ?_, distinct.2, rfl⟩, rfl⟩
        intro first member second laterMember
        rcases List.mem_append.mp member with member | member
        · exact apart first member second (List.mem_cons_of_mem _ laterMember)
        · rw [List.mem_singleton.mp member]
          exact distinct.1 second laterMember

theorem checkBoxes_eq_ok :
    catalog.checkBoxes = .ok () ↔
      ∀ box value, catalog.boxedClass? box = some value →
        catalog.IsDefined box ∧ catalog.IsDefined value := by
  unfold checkBoxes
  rw [forM_eq_ok]
  simp only [boxedClass?, OrderedMap.find?_eq_some_iff, Prod.forall]
  refine forall₃_congr fun box value member => ?_
  cases found : catalog.definition? box with
  | none =>
    constructor
    · intro succeeded
      cases succeeded
    · rintro ⟨⟨definition, present⟩, _⟩
      rw [found] at present
      cases present
  | some definition =>
    simp only [bind_eq_ok, resolve_eq_ok]
    constructor
    · rintro ⟨inside, present, _⟩
      exact ⟨⟨definition, found⟩, ⟨inside, present⟩⟩
    · rintro ⟨_, inside, present⟩
      exact ⟨inside, present, rfl⟩

theorem checkRoot_eq_ok :
    catalog.checkRoot = .ok () ↔
      ∃ root, catalog.definition? ClassId.root = some root ∧ root.isInterface = false ∧
        root.superclass = none := by
  unfold checkRoot
  cases catalog.definition? ClassId.root with
  | none => simp
  | some root => simp [and_comm]

/-- Below a proper root a supertype that is named is the supertype, because the root names none. -/
theorem supertype?_of_superclass {id supertype : ClassId} {definition : ClassDefinition}
    (rootChecked : catalog.checkRoot = .ok ()) (defined : catalog.definition? id = some definition)
    (named : definition.superclass = some supertype) :
    definition.supertype? id = some supertype := by
  have isNotRoot : id ≠ ClassId.root := by
    rintro rfl
    obtain ⟨root, found, _, free⟩ := checkRoot_eq_ok.mp rootChecked
    rw [found] at defined
    cases defined
    rw [free] at named
    cases named
  rw [ClassDefinition.supertype?, if_neg isNotRoot, named, Option.getD_some]

/-! ## Sorting -/

theorem map_item_orderTask (entries : List (ClassId × ClassDefinition)) :
    (entries.map orderTask).map Task.item = entries.map Prod.fst := by
  rw [List.map_map]
  rfl

theorem sortClasses_eq_ok {sorted : List ClassId} :
    catalog.sortClasses = .ok sorted ↔
      catalog.checkRoot = .ok () ∧
      (∀ entry ∈ catalog.definitions, catalog.SoundReferences entry.1 entry.2) ∧
      catalog.definitions.Pairwise (fun first second => first.2.name ≠ second.2.name) ∧
      catalog.checkBoxes = .ok () ∧
      (∀ entry ∈ catalog.definitions, entry.1 ∈ sorted) ∧
      (Task.schedule ClassId.atMost (catalog.definitions.map orderTask)).1 = sorted := by
  unfold sortClasses
  simp only [bind_eq_ok, checkClasses_eq_ok]
  constructor
  · rintro ⟨⟨⟩, rootSound, _, ⟨sound, _, distinct, rfl⟩, ⟨⟩, boxesSound, finish⟩
    split at finish
    · cases finish
    · rename_i allSorted
      rw [pure_eq_ok] at finish
      refine ⟨rootSound, sound, distinct, boxesSound, ?_, finish⟩
      rw [← finish]
      simpa using allSorted
  · rintro ⟨rootSound, sound, distinct, boxesSound, allSorted, rfl⟩
    refine ⟨(), rootSound, _, ⟨sound, by simp, distinct, rfl⟩, (), boxesSound, ?_⟩
    split
    · rename_i missing
      have notSorted := List.find?_some missing
      have sorted := allSorted _ (List.mem_of_find?_eq_some missing)
      simp [sorted] at notSorted
    · rfl

/-- What has to come before a defined class is defined itself. -/
theorem SoundReferences.isDefined_of_mem_predecessors {id earlier : ClassId}
    {definition : ClassDefinition} (sound : catalog.SoundReferences id definition)
    (member : earlier ∈ definition.predecessors id) : catalog.IsDefined earlier := by
  rcases mem_predecessors.mp member with above | listed
  · obtain ⟨super, found, _⟩ := sound.above earlier above
    exact ⟨super, found⟩
  · obtain ⟨interface, found, _⟩ := sound.listed earlier listed
    exact ⟨interface, found⟩

/-- The tasks of ordering the defined classes. -/
def orderTasks (catalog : Catalog) : List (Task ClassId) := catalog.definitions.map orderTask

theorem mem_items_orderTasks {id : ClassId} :
    id ∈ catalog.orderTasks.map Task.item ↔ catalog.IsDefined id := by
  rw [orderTasks, map_item_orderTask, List.mem_map]
  constructor
  · rintro ⟨⟨same, definition⟩, member, rfl⟩
    exact ⟨definition, mem_definitions.mp member⟩
  · rintro ⟨definition, defined⟩
    exact ⟨(id, definition), mem_definitions.mpr defined, rfl⟩

theorem items_orderTasks_nodup (catalog : Catalog) :
    (catalog.orderTasks.map Task.item).Nodup := by
  rw [orderTasks, map_item_orderTask]
  exact definitions_ids_nodup catalog

/-- The order answered for a class graph has the defined classes, each behind what precedes it. -/
theorem classOrder_of_sortClasses {sorted : List ClassId}
    (accepted : catalog.sortClasses = .ok sorted) : catalog.ClassOrder sorted := by
  obtain ⟨_, sound, _, _, allSorted, rfl⟩ := sortClasses_eq_ok.mp accepted
  have whole := Task.schedule_perm ClassId.atMost catalog.orderTasks
  have distinct := items_orderTasks_nodup catalog
  refine ⟨(List.nodup_append.mp (whole.nodup_iff.mpr distinct)).1, fun id => ⟨?_, ?_⟩, ?_⟩
  · intro member
    exact mem_items_orderTasks.mp (whole.mem_iff.mp (List.mem_append_left _ member))
  · rintro ⟨definition, defined⟩
    exact allSorted _ (mem_definitions.mpr defined)
  · rintro earlier later ⟨definition, defined, related⟩
    have entry := mem_definitions.mpr defined
    have needed := mem_predecessors.mpr related
    have task : orderTask (later, definition) ∈ catalog.orderTasks := List.mem_map_of_mem entry
    have present := (sound _ entry).isDefined_of_mem_predecessors needed
    exact Task.idxOf_lt_idxOf_of_mem_schedule ClassId.atMost task (allSorted _ entry) distinct
      needed (mem_items_orderTasks.mpr present)

/-- Along a path of supertypes and interfaces the place in an order grows. -/
theorem ClassOrder.idxOf_lt_of_transGen {sorted : List ClassId} (order : catalog.ClassOrder sorted)
    {earlier later : ClassId} (path : Relation.TransGen catalog.Precedes earlier later) :
    sorted.idxOf earlier < sorted.idxOf later := by
  induction path with
  | single step => exact order.behind step
  | tail _ step inductionHypothesis => exact inductionHypothesis.trans (order.behind step)

/-- What precedes a class stands in the part of the order before it. -/
theorem ClassOrder.mem_of_transGen {done rest : List ClassId} {earlier next : ClassId}
    (order : catalog.ClassOrder (done ++ next :: rest))
    (path : Relation.TransGen catalog.Precedes earlier next) : earlier ∈ done := by
  have notDone : next ∉ done := by
    intro member
    exact (List.nodup_append.mp order.distinct).2.2 next member next (by simp) rfl
  have place := order.idxOf_lt_of_transGen path
  rw [List.idxOf_append_of_notMem notDone, List.idxOf_cons_self, Nat.add_zero] at place
  exact ((List.prefix_append done (next :: rest)).mem_iff_idxOf_lt_length earlier).mpr place

/-- An accepted class graph is sound. -/
theorem soundGraph_of_sortClasses {sorted : List ClassId}
    (accepted : catalog.sortClasses = .ok sorted) : catalog.SoundGraph := by
  obtain ⟨rootChecked, sound, distinct, boxesChecked, _, _⟩ := sortClasses_eq_ok.mp accepted
  have rootSound := checkRoot_eq_ok.mp rootChecked
  have references : ∀ {id definition}, catalog.definition? id = some definition →
      catalog.SoundReferences id definition :=
    fun defined => sound _ (mem_definitions.mpr defined)
  refine ⟨rootSound, ?_, ?_, ?_, ?_, ?_, ?_⟩
  · intro first second firstDefinition secondDefinition firstFound secondFound sameName
    by_contra differ
    have : Std.Symm fun first second : ClassId × ClassDefinition =>
        first.2.name ≠ second.2.name := ⟨fun _ _ => Ne.symm⟩
    have apart := distinct.forall (mem_definitions.mpr firstFound)
      (mem_definitions.mpr secondFound)
    exact apart (fun same => differ (congrArg Prod.fst same)) sameName
  · intro id supertype definition defined named
    have above := supertype?_of_superclass rootChecked defined named
    exact ⟨((references defined).named supertype named).1,
      (references defined).above supertype above⟩
  · intro id interface definition defined listed
    exact (references defined).listed interface listed
  · intro id definition defined
    obtain ⟨outers, around, outersDistinct, new, _⟩ := (references defined).around
    refine ⟨outers, around, List.nodup_cons.mpr ⟨?_, outersDistinct⟩⟩
    exact fun again => new id again (by simp)
  · intro box value boxed
    exact checkBoxes_eq_ok.mp boxesChecked box value boxed
  · -- Along a circle the place of a class would be before itself.
    intro id circle
    exact absurd ((classOrder_of_sortClasses accepted).idxOf_lt_of_transGen circle) (lt_irrefl _)

theorem EnclosedBy.isDefined_of_mem {scope : ClassScope} {outers : List ClassId}
    (around : catalog.EnclosedBy scope outers) : ∀ outer ∈ outers, catalog.IsDefined outer := by
  induction around with
  | outermost notNested => simp
  | nested defined around inductionHypothesis =>
    exact List.forall_mem_cons.mpr ⟨⟨_, defined⟩, inductionHypothesis⟩

/-- Around a class there are fewer classes than are defined. -/
theorem EnclosedBy.length_lt_of_nodup {id : ClassId} {definition : ClassDefinition}
    {scope : ClassScope} {outers : List ClassId} (around : catalog.EnclosedBy scope outers)
    (defined : catalog.definition? id = some definition) (distinct : (id :: outers).Nodup) :
    outers.length < catalog.definitions.length :=
  length_le_of_nodup distinct
    (List.forall_mem_cons.mpr ⟨⟨definition, defined⟩, around.isDefined_of_mem⟩)

/-- A sound graph passes the checks of each class. -/
theorem SoundGraph.soundReferences (graph : catalog.SoundGraph) {id : ClassId}
    {definition : ClassDefinition} (defined : catalog.definition? id = some definition) :
    catalog.SoundReferences id definition := by
  refine ⟨?_, ?_, ?_, ?_⟩
  · intro supertype named
    obtain ⟨proper, super, found, _⟩ := graph.supertypes defined named
    exact ⟨proper, super, found⟩
  · intro supertype above
    cases named : definition.superclass with
    | some explicit =>
      have same : explicit = supertype := by
        rw [ClassDefinition.supertype?, named] at above
        split at above
        · cases above
        · simpa using above
      rw [← same]
      exact (graph.supertypes defined named).2
    | none =>
      have same : ClassId.root = supertype := by
        rw [ClassDefinition.supertype?, named] at above
        split at above
        · cases above
        · simpa using above
      obtain ⟨root, found, proper, _⟩ := graph.root
      rw [← same]
      exact ⟨root, found, proper⟩
  · intro interface listed
    exact graph.interfaces defined listed
  · obtain ⟨outers, around, distinct⟩ := graph.enclosing defined
    have short := around.length_lt_of_nodup defined distinct
    have bound := length_definitions_le catalog
    rw [List.nodup_cons] at distinct
    refine ⟨outers, around, distinct.2, ?_, by omega⟩
    intro outer member same
    rw [List.mem_singleton.mp same] at member
    exact distinct.1 member

/-- What is left over stands behind a circle of supertypes and interfaces. -/
theorem exists_circle_of_mem_stuck {id : ClassId}
    (left : id ∈ (Task.schedule ClassId.atMost catalog.orderTasks).2.map Task.item) :
    ∃ other, Relation.ReflTransGen catalog.Precedes other id ∧
      Relation.TransGen catalog.Precedes other other := by
  refine exists_circle_behind catalog.Precedes ?_ left
  intro item member
  obtain ⟨task, stuck, rfl⟩ := List.mem_map.mp member
  obtain ⟨entry, entryMember, rfl⟩ :=
    List.mem_map.mp (Task.stuck_subset ClassId.atMost catalog.orderTasks stuck)
  obtain ⟨need, needed, needStuck⟩ :=
    Task.exists_need_of_mem_stuck ClassId.atMost catalog.orderTasks stuck
  exact ⟨need, needStuck, entry.2, mem_definitions.mp entryMember, mem_predecessors.mp needed⟩

/-- Nothing is left over in a sound graph. -/
theorem SoundGraph.stuck_eq_nil (graph : catalog.SoundGraph) :
    (Task.schedule ClassId.atMost catalog.orderTasks).2 = [] := by
  apply List.eq_nil_iff_forall_not_mem.mpr
  intro task left
  obtain ⟨id, _, circle⟩ := exists_circle_of_mem_stuck (List.mem_map_of_mem left)
  exact graph.acyclic id circle

/-- A sound class graph is accepted. -/
theorem SoundGraph.exists_sortClasses (graph : catalog.SoundGraph) :
    ∃ sorted, catalog.sortClasses = .ok sorted := by
  have whole := Task.schedule_perm ClassId.atMost catalog.orderTasks
  rw [graph.stuck_eq_nil, List.map_nil, List.append_nil] at whole
  refine ⟨_, sortClasses_eq_ok.mpr ⟨checkRoot_eq_ok.mpr graph.root, ?_, ?_, ?_, ?_, rfl⟩⟩
  · intro entry member
    exact graph.soundReferences (mem_definitions.mp member)
  · refine (List.pairwise_map.mp (definitions_ids_nodup catalog)).imp_of_mem ?_
    intro first second firstMember secondMember differ sameName
    exact differ
      (graph.namesDistinct (mem_definitions.mp firstMember) (mem_definitions.mp secondMember)
        sameName)
  · exact checkBoxes_eq_ok.mpr fun box value boxed => graph.boxes boxed
  · intro entry member
    exact whole.mem_iff.mpr (mem_items_orderTasks.mpr ⟨entry.2, mem_definitions.mp member⟩)

/-! ## Main result -/

/-- Sorting accepts exactly the sound class graphs, and answers an order of the defined classes. -/
theorem sortClasses_accepts_soundGraph (catalog : Catalog) :
    ((∃ sorted, catalog.sortClasses = .ok sorted) ↔ catalog.SoundGraph) ∧
      ∀ sorted, catalog.sortClasses = .ok sorted → catalog.ClassOrder sorted := by
  refine ⟨⟨?_, SoundGraph.exists_sortClasses⟩, fun sorted => classOrder_of_sortClasses⟩
  rintro ⟨sorted, accepted⟩
  exact soundGraph_of_sortClasses accepted

/-- A class without fields and methods. -/
def bareClass (parts : List String) (superclass : Option ClassId) (exportSymbol : Option String) :
    ClassEntry :=
  .defined ⟨⟨parts⟩, .proper, .inheritable, .topLevel, superclass, [], [], [], exportSymbol⟩

/-- A class with a subclass nested in it, which is a box of it, two interfaces of which one extends
the other, the root, and a class that is only declared. -/
def shapes : Catalog where
  classes := .ofList [
    (⟨4⟩, .defined {
      name := ⟨["demo", "Circle", "Arc"]⟩
      kind := .proper
      modality := .final
      scope := .nested ⟨3⟩
      superclass := some ⟨3⟩
      interfaces := []
      fields := [⟨"next", .any⟩]
      methods := [⟨"area", .concrete, some ⟨2⟩, false⟩]
      exportSymbol := none }),
    (⟨3⟩, .defined {
      name := ⟨["demo", "Circle"]⟩
      kind := .proper
      modality := .inheritable
      scope := .topLevel
      superclass := none
      interfaces := [⟨1⟩]
      fields := [⟨"radius", .f64⟩]
      methods := [⟨"area", .concrete, some ⟨1⟩, true⟩]
      exportSymbol := some "circle_record" }),
    (⟨1⟩, .defined {
      name := ⟨["demo", "Shape"]⟩
      kind := .interface
      modality := .abstract
      scope := .topLevel
      superclass := none
      interfaces := [⟨2⟩]
      fields := []
      methods := [⟨"area", .abstract, none, true⟩]
      exportSymbol := none }),
    (⟨2⟩, .defined {
      name := ⟨["demo", "Drawn"]⟩
      kind := .interface
      modality := .abstract
      scope := .topLevel
      superclass := none
      interfaces := []
      fields := []
      methods := []
      exportSymbol := none }),
    (ClassId.root, .defined {
      name := rootName
      kind := .proper
      modality := .inheritable
      scope := .topLevel
      superclass := none
      interfaces := []
      fields := []
      methods := []
      exportSymbol := none }),
    (⟨9⟩, .declared ⟨["demo", "Later"]⟩)]
  functions := .empty
  valueBoxes := .ofList [(⟨4⟩, ⟨3⟩)]

theorem shapes_sortClasses :
    shapes.sortClasses = .ok [ClassId.root, ⟨2⟩, ⟨1⟩, ⟨3⟩, ⟨4⟩] := by
  cbv

theorem shapes_soundGraph_and_classOrder :
    shapes.SoundGraph ∧ shapes.ClassOrder [ClassId.root, ⟨2⟩, ⟨1⟩, ⟨3⟩, ⟨4⟩] :=
  ⟨(sortClasses_accepts_soundGraph shapes).1.mp ⟨_, shapes_sortClasses⟩,
    (sortClasses_accepts_soundGraph shapes).2 _ shapes_sortClasses⟩

end Catalog

end TypeRecords
