import TypeRecords.Proofs.Class.Walk
import TypeRecords.Proofs.FirstOccurrence

/-!
The interfaces of a class, in order.

Owns the full expansion of an interface: the interface, then the expansions of the interfaces it
lists, with every repetition. The interfaces of a class are the first occurrences in the expansions
of what the class and its supertypes list. The search itself never builds an expansion; it stops
where it meets an interface again. That this changes nothing rests on one invariant: whatever was
found before and lies below the interface being added, was found with all its super-interfaces.
-/

namespace TypeRecords

namespace Catalog

open Outcome FirstOccurrence

variable {catalog : Catalog} {sorted : List ClassId} {id : ClassId}

/-! ## Expansions -/

/-- The interfaces a class lists itself. -/
def listedInterfaces (catalog : Catalog) (id : ClassId) : List ClassId :=
  ((catalog.definition? id).map ClassDefinition.interfaces).getD []

theorem listedInterfaces_eq {definition : ClassDefinition}
    (defined : catalog.definition? id = some definition) :
    catalog.listedInterfaces id = definition.interfaces := by
  simp [listedInterfaces, defined]

theorem precedes_of_mem_listedInterfaces {interface : ClassId}
    (listed : interface ∈ catalog.listedInterfaces id) : catalog.Precedes interface id := by
  cases defined : catalog.definition? id with
  | none => simp [listedInterfaces, defined] at listed
  | some definition =>
    rw [listedInterfaces_eq defined] at listed
    exact ⟨definition, defined, .inr listed⟩

theorem SoundGraph.isDefined_of_mem_listedInterfaces (graph : catalog.SoundGraph)
    {interface : ClassId} (listed : interface ∈ catalog.listedInterfaces id) :
    catalog.IsDefined interface :=
  graph.isDefined_of_precedes (precedes_of_mem_listedInterfaces listed)

/-- An interface and behind it the expansions of the interfaces it lists, to a given depth. -/
def expansionWithin (catalog : Catalog) : Nat → ClassId → List ClassId
  | 0, _ => []
  | bound + 1, id => id :: (catalog.listedInterfaces id).flatMap (catalog.expansionWithin bound)

/-- An interface with all its super-interfaces, each as often as a path of interface lists leads to
it. -/
def expansion (catalog : Catalog) (id : ClassId) : List ClassId :=
  catalog.expansionWithin catalog.walkBound id

/-- What holds of a class wherever it holds of the interfaces it lists, holds of every class. Listed
interfaces come earlier in the order. -/
theorem interface_induction (order : catalog.ClassOrder sorted)
    {motive : ∀ id, catalog.IsDefined id → Prop}
    (step : ∀ id isDefined,
      (∀ interface ∈ catalog.listedInterfaces id, ∀ listedDefined, motive interface listedDefined) →
        motive id isDefined)
    (id : ClassId) (isDefined : catalog.IsDefined id) : motive id isDefined := by
  induction place : sorted.idxOf id using Nat.strong_induction_on generalizing id with
  | _ place' inductionHypothesis =>
    apply step id isDefined
    intro interface listed listedDefined
    have before := order.behind (precedes_of_mem_listedInterfaces listed)
    exact inductionHypothesis _ (place ▸ before) interface listedDefined rfl

/-- No path of interface lists is deeper than the place of its first class in the order. -/
theorem expansionWithin_eq (graph : catalog.SoundGraph) (order : catalog.ClassOrder sorted)
    (isDefined : catalog.IsDefined id) {bound other : Nat} (enough : sorted.idxOf id < bound)
    (otherEnough : sorted.idxOf id < other) :
    catalog.expansionWithin bound id = catalog.expansionWithin other id := by
  induction id, isDefined using interface_induction order generalizing bound other with
  | step id isDefined inductionHypothesis =>
    cases bound with
    | zero => omega
    | succ bound =>
      cases other with
      | zero => omega
      | succ other =>
        rw [expansionWithin, expansionWithin]
        congr 1
        apply List.flatMap_congr
        intro interface listed
        have before := order.behind (precedes_of_mem_listedInterfaces listed)
        have listedDefined := graph.isDefined_of_mem_listedInterfaces listed
        exact inductionHypothesis interface listed listedDefined (by omega) (by omega)

theorem expansion_eq (graph : catalog.SoundGraph) (order : catalog.ClassOrder sorted)
    (isDefined : catalog.IsDefined id) :
    catalog.expansion id = id :: (catalog.listedInterfaces id).flatMap catalog.expansion := by
  have enough := order.idxOf_lt isDefined
  have usual := length_definitions_lt_walkBound catalog
  have deeper : catalog.expansion id = catalog.expansionWithin (catalog.walkBound + 1) id :=
    expansionWithin_eq graph order isDefined (by omega) (by omega)
  rw [deeper, expansionWithin]
  rfl

theorem mem_expansion_self (graph : catalog.SoundGraph) (order : catalog.ClassOrder sorted)
    (isDefined : catalog.IsDefined id) : id ∈ catalog.expansion id := by
  rw [expansion_eq graph order isDefined]
  exact List.mem_cons_self

theorem expansion_subset_of_mem_listedInterfaces (graph : catalog.SoundGraph)
    (order : catalog.ClassOrder sorted) (isDefined : catalog.IsDefined id) {interface : ClassId}
    (listed : interface ∈ catalog.listedInterfaces id) :
    catalog.expansion interface ⊆ catalog.expansion id := by
  intro other member
  rw [expansion_eq graph order isDefined]
  exact List.mem_cons_of_mem _ (List.mem_flatMap.mpr ⟨interface, listed, member⟩)

/-- Everything in an expansion is the interface itself or precedes it. -/
theorem reflTransGen_of_mem_expansion (graph : catalog.SoundGraph)
    (order : catalog.ClassOrder sorted) (isDefined : catalog.IsDefined id) {other : ClassId}
    (member : other ∈ catalog.expansion id) :
    Relation.ReflTransGen catalog.Precedes other id := by
  induction id, isDefined using interface_induction order with
  | step id isDefined inductionHypothesis =>
    rw [expansion_eq graph order isDefined, List.mem_cons, List.mem_flatMap] at member
    rcases member with same | ⟨interface, listed, below⟩
    · rw [same]
    · have listedDefined := graph.isDefined_of_mem_listedInterfaces listed
      exact (inductionHypothesis interface listed listedDefined below).tail
        (precedes_of_mem_listedInterfaces listed)

theorem SoundGraph.isDefined_of_mem_expansion (graph : catalog.SoundGraph)
    (order : catalog.ClassOrder sorted) (isDefined : catalog.IsDefined id) {other : ClassId}
    (member : other ∈ catalog.expansion id) : catalog.IsDefined other := by
  rcases (reflTransGen_of_mem_expansion graph order isDefined member).cases_head with
    same | ⟨next, related, _⟩
  · rwa [same]
  · exact graph.isDefined_of_precedes related

/-- No interface lies below one that it lists. -/
theorem notMem_expansion_of_mem_listedInterfaces (graph : catalog.SoundGraph)
    (order : catalog.ClassOrder sorted) {interface : ClassId}
    (listed : interface ∈ catalog.listedInterfaces id) : id ∉ catalog.expansion interface := by
  intro member
  have isDefined := graph.isDefined_of_mem_listedInterfaces listed
  have path := reflTransGen_of_mem_expansion graph order isDefined member
  exact graph.acyclic id (.tail' path (precedes_of_mem_listedInterfaces listed))

/-- The expansion of an interface holds the expansions of all its super-interfaces. -/
theorem expansion_subset_of_mem (graph : catalog.SoundGraph) (order : catalog.ClassOrder sorted)
    (isDefined : catalog.IsDefined id) {other : ClassId} (member : other ∈ catalog.expansion id) :
    catalog.expansion other ⊆ catalog.expansion id := by
  induction id, isDefined using interface_induction order with
  | step id isDefined inductionHypothesis =>
    rw [expansion_eq graph order isDefined, List.mem_cons, List.mem_flatMap] at member
    rcases member with same | ⟨interface, listed, below⟩
    · rw [same]
      exact List.Subset.refl _
    · have listedDefined := graph.isDefined_of_mem_listedInterfaces listed
      have inner := inductionHypothesis interface listed listedDefined below
      exact List.Subset.trans inner
        (expansion_subset_of_mem_listedInterfaces graph order isDefined listed)

/-- Whether a class is defined as an interface. -/
def IsInterface (catalog : Catalog) (id : ClassId) : Prop :=
  ∃ definition, catalog.definition? id = some definition ∧ definition.isInterface = true

theorem IsInterface.isDefined (isInterface : catalog.IsInterface id) : catalog.IsDefined id := by
  obtain ⟨definition, defined, _⟩ := isInterface
  exact ⟨definition, defined⟩

/-- A proper class is no interface. -/
theorem IsInterface.not_isProper (isInterface : catalog.IsInterface id) :
    ¬ catalog.IsProper id := by
  obtain ⟨definition, defined, isInterface⟩ := isInterface
  intro proper
  simp [proper definition defined] at isInterface

theorem SoundGraph.isInterface_of_mem_listedInterfaces (graph : catalog.SoundGraph)
    {interface : ClassId} (listed : interface ∈ catalog.listedInterfaces id) :
    catalog.IsInterface interface := by
  cases defined : catalog.definition? id with
  | none => simp [listedInterfaces, defined] at listed
  | some definition =>
    rw [listedInterfaces_eq defined] at listed
    exact graph.interfaces defined listed

theorem SoundGraph.isInterface_of_mem_expansion (graph : catalog.SoundGraph)
    (order : catalog.ClassOrder sorted) (isInterface : catalog.IsInterface id) {other : ClassId}
    (member : other ∈ catalog.expansion id) : catalog.IsInterface other := by
  have isDefined := isInterface.isDefined
  induction id, isDefined using interface_induction order with
  | step id isDefined inductionHypothesis =>
    rw [expansion_eq graph order isDefined, List.mem_cons, List.mem_flatMap] at member
    rcases member with same | ⟨interface, listed, below⟩
    · exact same ▸ isInterface
    · have listedIsInterface := graph.isInterface_of_mem_listedInterfaces listed
      exact inductionHypothesis interface listed listedIsInterface.isDefined listedIsInterface below

/-- All that is found from interface lists are interfaces. -/
theorem SoundGraph.isInterface_of_mem_flatMap (graph : catalog.SoundGraph)
    (order : catalog.ClassOrder sorted) {interfaces : List ClassId}
    (allInterfaces : ∀ interface ∈ interfaces, catalog.IsInterface interface) {other : ClassId}
    (member : other ∈ interfaces.flatMap catalog.expansion) : catalog.IsInterface other := by
  obtain ⟨interface, listed, below⟩ := List.mem_flatMap.mp member
  exact graph.isInterface_of_mem_expansion order (allInterfaces interface listed) below

/-! ## The search for interfaces -/

/-- Whether all that was found and lies below an interface was found with its super-interfaces. -/
def SaturatedBelow (catalog : Catalog) (found : List ClassId) (interface : ClassId) : Prop :=
  ∀ other ∈ found, other ∈ catalog.expansion interface → catalog.expansion other ⊆ found

/-- All that lies below an interface is found together. -/
theorem SaturatedBelow.append_expansion (graph : catalog.SoundGraph)
    (order : catalog.ClassOrder sorted) {found : List ClassId} {interface other : ClassId}
    (saturated : catalog.SaturatedBelow found other) (isDefined : catalog.IsDefined interface) :
    catalog.SaturatedBelow (found ++ catalog.expansion interface).eraseDups other := by
  intro inner member below deepest deepestMember
  rw [List.mem_eraseDups, List.mem_append] at member ⊢
  rcases member with old | new
  · exact .inl (saturated inner old below deepestMember)
  · exact .inr (expansion_subset_of_mem graph order isDefined new deepestMember)

/-- An interface does not lie below what it lists, so only earlier finds matter there. -/
theorem SaturatedBelow.concat (graph : catalog.SoundGraph) (order : catalog.ClassOrder sorted)
    {found : List ClassId} {interface listed : ClassId}
    (saturated : catalog.SaturatedBelow found interface) (isDefined : catalog.IsDefined interface)
    (member : listed ∈ catalog.listedInterfaces interface) :
    catalog.SaturatedBelow (found ++ [interface]) listed := by
  intro other otherFound below
  have isOld : other ∈ found := by
    rcases List.mem_append.mp otherFound with old | new
    · exact old
    · rw [List.mem_singleton.mp new] at below
      exact absurd below (notMem_expansion_of_mem_listedInterfaces graph order member)
  have belowInterface :=
    expansion_subset_of_mem_listedInterfaces graph order isDefined member below
  exact List.subset_append_of_subset_left _ (saturated other isOld belowInterface)

/-- Adding interfaces one after the other finds the first occurrences in their expansions, if this
is so for each of them alone. -/
theorem foldlM_addInterface_eq (graph : catalog.SoundGraph) (order : catalog.ClassOrder sorted)
    {bound : Nat} {interfaces : List ClassId}
    (each : ∀ interface ∈ interfaces, ∀ found : List ClassId, found.Nodup →
      catalog.SaturatedBelow found interface →
      catalog.addInterface bound found interface =
        .ok (found ++ catalog.expansion interface).eraseDups)
    (defined : ∀ interface ∈ interfaces, catalog.IsDefined interface) {found : List ClassId}
    (distinct : found.Nodup)
    (saturated : ∀ interface ∈ interfaces, catalog.SaturatedBelow found interface) :
    interfaces.foldlM (catalog.addInterface bound) found =
      .ok (found ++ interfaces.flatMap catalog.expansion).eraseDups := by
  induction interfaces generalizing found with
  | nil => simp [eraseDups_eq_self distinct, pure, Except.pure]
  | cons interface rest inductionHypothesis =>
    rw [List.forall_mem_cons] at each defined saturated
    have stillSaturated : ∀ other ∈ rest,
        catalog.SaturatedBelow (found ++ catalog.expansion interface).eraseDups other := by
      intro other listed
      exact (saturated.2 other listed).append_expansion graph order defined.1
    rw [List.foldlM_cons, each.1 found distinct saturated.1, ok_bind,
      inductionHypothesis each.2 defined.2 (nodup_eraseDups _) stillSaturated,
      eraseDups_eraseDups_append, List.flatMap_cons, List.append_assoc]

/-- Adding an interface finds the first occurrences in its expansion. -/
theorem addInterface_eq (graph : catalog.SoundGraph) (order : catalog.ClassOrder sorted)
    {interface : ClassId} (isDefined : catalog.IsDefined interface) {bound : Nat}
    (enough : sorted.idxOf interface < bound) {found : List ClassId} (distinct : found.Nodup)
    (saturated : catalog.SaturatedBelow found interface) :
    catalog.addInterface bound found interface =
      .ok (found ++ catalog.expansion interface).eraseDups := by
  induction interface, isDefined using interface_induction order generalizing bound found with
  | step interface isDefined inductionHypothesis =>
    cases bound with
    | zero => omega
    | succ bound =>
      by_cases known : interface ∈ found
      · have allKnown := saturated interface known (mem_expansion_self graph order isDefined)
        rw [addInterface, if_pos known, eraseDups_append_of_subset allKnown,
          eraseDups_eq_self distinct]
      · -- A new interface: what it lists is added behind it, each by the induction hypothesis.
        obtain ⟨definition, defined⟩ := isDefined
        have listedEq := listedInterfaces_eq defined
        have listedDefined : ∀ listed ∈ definition.interfaces, catalog.IsDefined listed := by
          intro listed member
          exact graph.isDefined_of_mem_listedInterfaces (listedEq ▸ member)
        have each : ∀ listed ∈ definition.interfaces, ∀ state : List ClassId, state.Nodup →
            catalog.SaturatedBelow state listed →
            catalog.addInterface bound state listed =
              .ok (state ++ catalog.expansion listed).eraseDups := by
          intro listed member state stateDistinct stateSaturated
          have before := order.behind (precedes_of_mem_listedInterfaces (listedEq ▸ member))
          exact inductionHypothesis listed (listedEq ▸ member) (listedDefined listed member)
            (by omega) stateDistinct stateSaturated
        have newDistinct : (found ++ [interface]).Nodup :=
          List.Nodup.append distinct (List.nodup_singleton _) (by simpa using known)
        have newSaturated : ∀ listed ∈ definition.interfaces,
            catalog.SaturatedBelow (found ++ [interface]) listed := by
          intro listed member
          exact saturated.concat graph order ⟨definition, defined⟩ (listedEq ▸ member)
        rw [addInterface, if_neg known, definition_eq_ok.mpr defined, ok_bind,
          foldlM_addInterface_eq graph order each listedDefined newDistinct newSaturated,
          expansion_eq graph order ⟨definition, defined⟩, listedEq, List.append_assoc,
          List.singleton_append]

/-- Whether a collection has the super-interfaces of all that is in it. -/
def Saturated (catalog : Catalog) (found : List ClassId) : Prop :=
  ∀ other ∈ found, catalog.expansion other ⊆ found

theorem saturated_nil : catalog.Saturated [] := by simp [Saturated]

theorem Saturated.append_expansions (graph : catalog.SoundGraph) (order : catalog.ClassOrder sorted)
    {found interfaces : List ClassId} (saturated : catalog.Saturated found)
    (defined : ∀ interface ∈ interfaces, catalog.IsDefined interface) :
    catalog.Saturated (found ++ interfaces.flatMap catalog.expansion).eraseDups := by
  intro other member inner innerMember
  rw [List.mem_eraseDups, List.mem_append] at member ⊢
  rcases member with old | new
  · exact .inl (saturated other old innerMember)
  · obtain ⟨interface, listed, below⟩ := List.mem_flatMap.mp new
    have kept := expansion_subset_of_mem graph order (defined interface listed) below innerMember
    exact .inr (List.mem_flatMap.mpr ⟨interface, listed, kept⟩)

/-- Adding the interfaces a class lists itself, to a collection that has all super-interfaces. -/
theorem addListed_eq (graph : catalog.SoundGraph) (order : catalog.ClassOrder sorted)
    {definition : ClassDefinition} (defined : catalog.definition? id = some definition)
    {found : List ClassId} (distinct : found.Nodup) (saturated : catalog.Saturated found) :
    definition.interfaces.foldlM (catalog.addInterface catalog.walkBound) found =
      .ok (found ++ (catalog.listedInterfaces id).flatMap catalog.expansion).eraseDups := by
  have usual := length_definitions_lt_walkBound catalog
  have listedDefined : ∀ interface ∈ catalog.listedInterfaces id, catalog.IsDefined interface :=
    fun _ => graph.isDefined_of_mem_listedInterfaces
  rw [← listedInterfaces_eq defined]
  apply foldlM_addInterface_eq graph order _ listedDefined distinct
  · intro interface listed other member _
    exact saturated other member
  · intro interface listed state stateDistinct saturated
    have place := order.idxOf_lt (listedDefined interface listed)
    exact addInterface_eq graph order (listedDefined interface listed) (by omega) stateDistinct
      saturated

/-- The interfaces of a proper class are collected from what it and its supertypes list. -/
theorem addInterfacesOf_eq (graph : catalog.SoundGraph) (order : catalog.ClassOrder sorted)
    {chain : List ClassId} (ancestry : catalog.Ancestry id chain) (proper : catalog.IsProper id)
    {bound : Nat} (enough : chain.length ≤ bound) {found : List ClassId} (distinct : found.Nodup)
    (saturated : catalog.Saturated found) :
    catalog.addInterfacesOf bound found id = .ok (found ++
      (chain.flatMap catalog.listedInterfaces).flatMap catalog.expansion).eraseDups := by
  induction ancestry generalizing bound found with
  | root defined =>
    cases bound with
    | zero => simp at enough
    | succ bound =>
      rw [addInterfacesOf, definition_eq_ok.mpr defined, ok_bind,
        addListed_eq graph order defined distinct saturated, ok_bind, proper _ defined,
        supertype?_eq_ok defined, ok_bind]
      simp [ClassDefinition.supertype?, pure, Except.pure]
  | @under id supertype definition chain defined step above inductionHypothesis =>
    cases bound with
    | zero => simp at enough
    | succ bound =>
      have superIsProper := graph.isProper_of_supertype defined step
      have listedDefined : ∀ interface ∈ catalog.listedInterfaces id,
          catalog.IsDefined interface := fun _ => graph.isDefined_of_mem_listedInterfaces
      have stillSaturated := saturated.append_expansions graph order listedDefined
      rw [addInterfacesOf, definition_eq_ok.mpr defined, ok_bind,
        addListed_eq graph order defined distinct saturated, ok_bind, proper _ defined,
        supertype?_eq_ok defined, step, ok_bind]
      dsimp only
      rw [inductionHypothesis superIsProper (Nat.le_of_succ_le_succ enough) (nodup_eraseDups _)
        stillSaturated, eraseDups_eraseDups_append, List.flatMap_cons, List.flatMap_append,
        List.append_assoc]
      rfl

/-- The interfaces of a proper class: the first occurrences in the expansions of what it lists, then
of what its supertypes list. -/
theorem interfaces_eq_of_isProper (graph : catalog.SoundGraph) (order : catalog.ClassOrder sorted)
    {chain : List ClassId} (ancestry : catalog.Ancestry id chain) (proper : catalog.IsProper id) :
    catalog.interfaces id =
      .ok ((chain.flatMap catalog.listedInterfaces).flatMap catalog.expansion).eraseDups := by
  have enough := (ancestry.length_lt_walkBound graph).le
  rw [interfaces,
    addInterfacesOf_eq graph order ancestry proper enough List.nodup_nil saturated_nil]
  rfl

/-- The interfaces of an interface: the first occurrences in its expansion, without itself. -/
theorem interfaces_eq_of_isInterface (graph : catalog.SoundGraph)
    (order : catalog.ClassOrder sorted) {definition : ClassDefinition}
    (defined : catalog.definition? id = some definition)
    (isInterface : definition.isInterface = true) :
    catalog.interfaces id =
      .ok ((catalog.listedInterfaces id).flatMap catalog.expansion).eraseDups := by
  rw [interfaces, walkBound, addInterfacesOf, definition_eq_ok.mpr defined, ok_bind,
    addListed_eq graph order defined List.nodup_nil saturated_nil, ok_bind, isInterface]
  rfl

/-! ## Laws of the order -/

/-- An interface in front of its interfaces: the first occurrences in its expansion. -/
theorem eraseDups_expansion (graph : catalog.SoundGraph) (order : catalog.ClassOrder sorted)
    (isDefined : catalog.IsDefined id) :
    (catalog.expansion id).eraseDups =
      id :: ((catalog.listedInterfaces id).flatMap catalog.expansion).eraseDups := by
  have notBelow : id ∉ (catalog.listedInterfaces id).flatMap catalog.expansion := by
    intro member
    obtain ⟨interface, listed, below⟩ := List.mem_flatMap.mp member
    exact notMem_expansion_of_mem_listedInterfaces graph order listed below
  rw [expansion_eq graph order isDefined, List.eraseDups_cons]
  congr 2
  rw [List.filter_eq_self]
  intro other member
  have differs : other ≠ id := fun same => notBelow (same ▸ member)
  simpa using differs

/-- Expanding the first occurrences in expansions finds them again, in the same order. -/
theorem eraseDups_flatMap_expansion (graph : catalog.SoundGraph) (order : catalog.ClassOrder sorted)
    {interfaces : List ClassId} (defined : ∀ interface ∈ interfaces, catalog.IsDefined interface) :
    ((interfaces.flatMap catalog.expansion).eraseDups.flatMap catalog.expansion).eraseDups =
      (interfaces.flatMap catalog.expansion).eraseDups := by
  rw [eraseDups_flatMap_eraseDups, List.flatMap_assoc]
  apply eraseDups_flatMap_congr
  intro interface member
  have isDefined := defined interface member
  have nothingNew : ((catalog.listedInterfaces interface).flatMap catalog.expansion).flatMap
      catalog.expansion ⊆ catalog.expansion interface := by
    intro inner innerMember
    obtain ⟨other, below, innerBelow⟩ := List.mem_flatMap.mp innerMember
    have otherMember : other ∈ catalog.expansion interface := by
      rw [expansion_eq graph order isDefined]
      exact List.mem_cons_of_mem _ below
    exact expansion_subset_of_mem graph order isDefined otherMember innerBelow
  have unfolded : (catalog.expansion interface).flatMap catalog.expansion =
      catalog.expansion interface ++
        ((catalog.listedInterfaces interface).flatMap catalog.expansion).flatMap
          catalog.expansion := by
    conv_lhs => rw [expansion_eq graph order isDefined, List.flatMap_cons]
  rw [unfolded, eraseDups_append_of_subset nothingNew]

end Catalog

end TypeRecords
