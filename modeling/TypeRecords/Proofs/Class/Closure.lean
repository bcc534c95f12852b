import TypeRecords.Proofs.Class.Members

/-!
The interfaces of a class as a closure.

Owns what the interfaces of a class are, told without the search that finds them. As a collection
they are all that interface lists lead to from the lists of the class and of its supertypes. As a
list they are the first occurrences in the full expansion of these lists, where every listed
interface is followed by the expansion of its own list, however often it has been met before. Both
readings rest on the expansions the search is compared with, which have a closed form here: a
relation on lists that needs no bound.
-/

namespace TypeRecords

namespace Catalog

open Outcome FirstOccurrence

variable {catalog : Catalog} {sorted : List ClassId} {id : ClassId}

/-! ## Interface lists -/

/-- Whether a class lists another as an interface. -/
def Lists (catalog : Catalog) (id interface : ClassId) : Prop :=
  ∃ definition, catalog.definition? id = some definition ∧ interface ∈ definition.interfaces

theorem mem_listedInterfaces {interface : ClassId} :
    interface ∈ catalog.listedInterfaces id ↔ catalog.Lists id interface := by
  cases defined : catalog.definition? id with
  | none => simp [listedInterfaces, Lists, defined]
  | some definition => simp [listedInterfaces, Lists, defined]

/-- The full expansion of a list of interfaces: each of them, followed by the full expansion of
what it lists itself. -/
inductive Expands (catalog : Catalog) : List ClassId → List ClassId → Prop
  | nil : Expands catalog [] []
  | cons {interface : ClassId} {rest below behind : List ClassId} {definition : ClassDefinition}
      (defined : catalog.definition? interface = some definition)
      (inner : Expands catalog definition.interfaces below)
      (further : Expands catalog rest behind) :
      Expands catalog (interface :: rest) (interface :: below ++ behind)

/-- Lists are expanded member by member, if what each member lists can be. -/
theorem expands_flatMap (graph : catalog.SoundGraph) (order : catalog.ClassOrder sorted)
    {interfaces : List ClassId}
    (each : ∀ interface ∈ interfaces, catalog.IsDefined interface ∧
      catalog.Expands (catalog.listedInterfaces interface)
        ((catalog.listedInterfaces interface).flatMap catalog.expansion)) :
    catalog.Expands interfaces (interfaces.flatMap catalog.expansion) := by
  induction interfaces with
  | nil => exact .nil
  | cons interface rest inductionHypothesis =>
    rw [List.forall_mem_cons] at each
    obtain ⟨⟨⟨definition, defined⟩, inner⟩, others⟩ := each
    rw [listedInterfaces_eq defined] at inner
    rw [List.flatMap_cons, expansion_eq graph order ⟨definition, defined⟩,
      listedInterfaces_eq defined]
    exact .cons defined inner (inductionHypothesis others)

theorem expands_listedInterfaces (graph : catalog.SoundGraph) (order : catalog.ClassOrder sorted)
    (isDefined : catalog.IsDefined id) :
    catalog.Expands (catalog.listedInterfaces id)
      ((catalog.listedInterfaces id).flatMap catalog.expansion) := by
  induction id, isDefined using interface_induction order with
  | step id isDefined inductionHypothesis =>
    apply expands_flatMap graph order
    intro interface listed
    have listedDefined := graph.isDefined_of_mem_listedInterfaces listed
    exact ⟨listedDefined, inductionHypothesis interface listed listedDefined⟩

/-- What an expansion holds is what interface lists lead to. -/
theorem mem_expansion_iff (graph : catalog.SoundGraph) (order : catalog.ClassOrder sorted)
    (isDefined : catalog.IsDefined id) {interface : ClassId} :
    interface ∈ catalog.expansion id ↔ Relation.ReflTransGen catalog.Lists id interface := by
  constructor
  · intro member
    induction id, isDefined using interface_induction order with
    | step id isDefined inductionHypothesis =>
      rw [expansion_eq graph order isDefined, List.mem_cons, List.mem_flatMap] at member
      rcases member with same | ⟨listed, listedMember, below⟩
      · rw [same]
      · have listedDefined := graph.isDefined_of_mem_listedInterfaces listedMember
        exact .head (mem_listedInterfaces.mp listedMember)
          (inductionHypothesis listed listedMember listedDefined below)
  · intro path
    induction path with
    | refl => exact mem_expansion_self graph order isDefined
    | @tail middle interface _ lists inductionHypothesis =>
      have listed := mem_listedInterfaces.mpr lists
      have middleDefined := graph.isDefined_of_mem_expansion order isDefined inductionHypothesis
      have above := expansion_subset_of_mem graph order isDefined inductionHypothesis
      have inMiddle := expansion_subset_of_mem_listedInterfaces graph order middleDefined listed
      exact above (inMiddle (mem_expansion_self graph order
        (graph.isDefined_of_mem_listedInterfaces listed)))

/-! ## The closure of interface lists -/

/-- Whether a list has the interfaces that the lists of some classes lead to, in the order of
their full expansion. -/
structure InterfaceClosure (catalog : Catalog) (owners found : List ClassId) : Prop where
  distinct : found.Nodup
  mem_iff : ∀ interface, interface ∈ found ↔ ∃ owner ∈ owners, ∃ listed,
    catalog.Lists owner listed ∧ Relation.ReflTransGen catalog.Lists listed interface
  order : ∃ full, catalog.Expands (owners.flatMap catalog.listedInterfaces) full ∧
    found = full.eraseDups
  /-- What the closure has, it has with all its own interfaces. -/
  closed : ∀ interface ∈ found, ∃ below, catalog.interfaces interface = .ok below ∧ below ⊆ found

/-- The first occurrences in the expansions of what some classes list. -/
theorem interfaceClosure_eraseDups (graph : catalog.SoundGraph)
    (order : catalog.ClassOrder sorted) (owners : List ClassId) :
    catalog.InterfaceClosure owners
      ((owners.flatMap catalog.listedInterfaces).flatMap catalog.expansion).eraseDups := by
  have allInterfaces : ∀ listed ∈ owners.flatMap catalog.listedInterfaces,
      catalog.IsInterface listed := by
    intro listed member
    obtain ⟨owner, _, listedBy⟩ := List.mem_flatMap.mp member
    exact graph.isInterface_of_mem_listedInterfaces listedBy
  refine ⟨nodup_eraseDups _, ?_, ⟨_, ?_, rfl⟩, ?_⟩
  · intro interface
    rw [List.mem_eraseDups, List.mem_flatMap]
    constructor
    · rintro ⟨listed, member, below⟩
      obtain ⟨owner, isOwner, listedBy⟩ := List.mem_flatMap.mp member
      have path := (mem_expansion_iff graph order (allInterfaces listed member).isDefined).mp below
      exact ⟨owner, isOwner, listed, mem_listedInterfaces.mp listedBy, path⟩
    · rintro ⟨owner, isOwner, listed, lists, path⟩
      have member : listed ∈ owners.flatMap catalog.listedInterfaces :=
        List.mem_flatMap.mpr ⟨owner, isOwner, mem_listedInterfaces.mpr lists⟩
      exact ⟨listed, member,
        (mem_expansion_iff graph order (allInterfaces listed member).isDefined).mpr path⟩
  · apply expands_flatMap graph order
    intro listed member
    have isDefined := (allInterfaces listed member).isDefined
    exact ⟨isDefined, expands_listedInterfaces graph order isDefined⟩
  · intro interface member
    rw [List.mem_eraseDups] at member
    obtain ⟨definition, defined, isInterface⟩ :=
      graph.isInterface_of_mem_flatMap order allInterfaces member
    refine ⟨_, interfaces_eq_of_isInterface graph order defined isInterface, ?_⟩
    intro inner innerMember
    obtain ⟨listed, listedMember, below⟩ := List.mem_flatMap.mp member
    have isDefined := (allInterfaces listed listedMember).isDefined
    have inExpansion : inner ∈ catalog.expansion interface := by
      rw [expansion_eq graph order ⟨definition, defined⟩]
      exact List.mem_cons_of_mem _ (List.mem_eraseDups.mp innerMember)
    rw [List.mem_eraseDups]
    exact List.mem_flatMap.mpr ⟨listed, listedMember,
      expansion_subset_of_mem graph order isDefined below inExpansion⟩

/-- No class is among its own interfaces. -/
theorem notMem_interfaces (graph : catalog.SoundGraph) (order : catalog.ClassOrder sorted)
    (isDefined : catalog.IsDefined id) {found : List ClassId}
    (answered : catalog.interfaces id = .ok found) : id ∉ found := by
  intro member
  obtain ⟨other, collected, precedes⟩ := exists_interfaces graph order isDefined
  cases answered.symm.trans collected
  exact graph.acyclic id (precedes id member)

/-- A proper class has the interfaces of its supertype. -/
theorem interfacesAlong_subset (above below : List ClassId) :
    catalog.interfacesAlong above ⊆ catalog.interfacesAlong (below ++ above) := by
  intro interface member
  rw [interfacesAlong, List.mem_eraseDups] at member ⊢
  rw [List.flatMap_append, List.flatMap_append]
  exact List.mem_append_right _ member

theorem exists_interfaces_of_supertype (graph : catalog.SoundGraph)
    (order : catalog.ClassOrder sorted) {definition : ClassDefinition}
    (defined : catalog.definition? id = some definition) (proper : definition.isInterface = false)
    {supertype : ClassId} (step : definition.supertype? id = some supertype) {found : List ClassId}
    (answered : catalog.interfaces id = .ok found) :
    ∃ above, catalog.interfaces supertype = .ok above ∧ above ⊆ found := by
  have related : catalog.Precedes supertype id := ⟨definition, defined, .inl step⟩
  obtain ⟨chain, ancestry⟩ := exists_ancestry graph order (graph.isDefined_of_precedes related)
  have superIsProper := graph.isProper_of_supertype defined step
  have isProper := isProper_of_isInterface_eq_false defined proper
  have own := interfaces_eq_of_isProper graph order (.under defined step ancestry) isProper
  rw [own, Except.ok.injEq] at answered
  refine ⟨_, interfaces_eq_of_isProper graph order ancestry superIsProper, ?_⟩
  rw [← answered]
  exact interfacesAlong_subset chain [id]

/-! ## Main result -/

/-- The interfaces of every class of an accepted graph are the closure of its own interface list
and, unless it is an interface, of those of its supertypes upwards. -/
theorem interfaceClosure_of_sortClasses {catalog : Catalog} {sorted : List ClassId}
    (accepted : catalog.sortClasses = .ok sorted) {id : ClassId} {definition : ClassDefinition}
    (defined : catalog.definition? id = some definition) :
    ∃ hierarchy found, catalog.hierarchy id = .ok hierarchy ∧
      catalog.interfaces id = .ok found ∧ id ∉ found ∧
      catalog.InterfaceClosure (if definition.isInterface then [id] else hierarchy.reverse) found ∧
      (definition.isInterface = false → ∀ supertype, definition.supertype? id = some supertype →
        ∃ above, catalog.interfaces supertype = .ok above ∧ above ⊆ found) := by
  have graph := soundGraph_of_sortClasses accepted
  have order := classOrder_of_sortClasses accepted
  have isDefined : catalog.IsDefined id := ⟨definition, defined⟩
  obtain ⟨chain, ancestry⟩ := exists_ancestry graph order isDefined
  have walked := hierarchy_eq graph ancestry
  cases isInterface : definition.isInterface with
  | true =>
    have answered := interfaces_eq_of_isInterface graph order defined isInterface
    have closure := interfaceClosure_eraseDups graph order [id]
    rw [List.flatMap_singleton] at closure
    exact ⟨_, _, walked, answered, notMem_interfaces graph order isDefined answered, closure,
      fun proper => by cases proper⟩
  | false =>
    have isProper := isProper_of_isInterface_eq_false defined isInterface
    have answered := interfaces_eq_of_isProper graph order ancestry isProper
    have closure := interfaceClosure_eraseDups graph order chain
    refine ⟨_, _, walked, answered, notMem_interfaces graph order isDefined answered, ?_, ?_⟩
    · rw [List.reverse_reverse]
      exact closure
    · intro _ supertype step
      exact exists_interfaces_of_supertype graph order defined isInterface step answered

theorem shadowed_interfaceClosure :
    shadowed.hierarchy ⟨5⟩ = .ok [ClassId.root, ⟨3⟩, ⟨5⟩] ∧
      shadowed.interfaces ⟨5⟩ = .ok [⟨4⟩, ⟨1⟩, ⟨2⟩] ∧
      shadowed.InterfaceClosure [⟨5⟩, ⟨3⟩, ClassId.root] [⟨4⟩, ⟨1⟩, ⟨2⟩] ∧
      ∃ above, shadowed.interfaces ⟨3⟩ = .ok above ∧ above ⊆ [⟨4⟩, ⟨1⟩, ⟨2⟩] := by
  have walked : shadowed.hierarchy ⟨5⟩ = .ok [ClassId.root, ⟨3⟩, ⟨5⟩] := rfl
  have answered : shadowed.interfaces ⟨5⟩ = .ok [⟨4⟩, ⟨1⟩, ⟨2⟩] := rfl
  have defined : ∃ definition, shadowed.definition? ⟨5⟩ = some definition ∧
      definition.isInterface = false ∧ definition.supertype? ⟨5⟩ = some ⟨3⟩ := ⟨_, rfl, rfl, rfl⟩
  obtain ⟨definition, defined, isProper, above⟩ := defined
  obtain ⟨hierarchy, found, isHierarchy, isFound, _, closure, inherits⟩ :=
    interfaceClosure_of_sortClasses shadowed_sortClasses defined
  cases walked.symm.trans isHierarchy
  cases answered.symm.trans isFound
  rw [isProper] at closure
  exact ⟨walked, answered, closure, inherits isProper ⟨3⟩ above⟩

end Catalog

end TypeRecords
