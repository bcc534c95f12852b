import TypeRecords.Class.Dispatch
import TypeRecords.Proofs.Class.Graph

/-!
Walks over an accepted class graph.

Owns the course of every walk over supertypes, interfaces and enclosing classes. A walk upwards
follows the ancestry of a class, which is a finite list in an accepted graph, and what the walk
answers is a fold over that list. A walk over interfaces descends in the order of classes. So each
walk ends, meets defined classes only, and is no deeper than there are defined classes.
-/

namespace TypeRecords

namespace Catalog

open Outcome

variable {catalog : Catalog} {sorted : List ClassId}

/-! ## Lookups on the way -/

theorem definition_eq_ok {id : ClassId} {definition : ClassDefinition} :
    catalog.definition id = .ok definition ↔ catalog.definition? id = some definition := by
  rw [Catalog.definition, definition?]
  cases catalog.classes.find? id with
  | none => simp
  | some entry => cases entry <;> simp [ClassEntry.definition?]

theorem supertype?_eq_ok {id : ClassId} {definition : ClassDefinition}
    (defined : catalog.definition? id = some definition) :
    catalog.supertype? id = .ok (definition.supertype? id) := by
  rw [Catalog.supertype?, definition_eq_ok.mpr defined]
  by_cases isRoot : id = ClassId.root
  · rw [if_pos isRoot, ClassDefinition.supertype?, if_pos isRoot]
  · rw [if_neg isRoot]
    rfl

/-- In a sound graph, what precedes a class is defined. -/
theorem SoundGraph.isDefined_of_precedes (graph : catalog.SoundGraph) {earlier later : ClassId}
    (related : catalog.Precedes earlier later) : catalog.IsDefined earlier := by
  obtain ⟨definition, defined, related⟩ := related
  exact (graph.soundReferences defined).isDefined_of_mem_predecessors
    (mem_predecessors.mpr related)

/-- Whether a class is not an interface, if it is defined at all. -/
def IsProper (catalog : Catalog) (id : ClassId) : Prop :=
  ∀ definition, catalog.definition? id = some definition → definition.isInterface = false

theorem isProper_of_isInterface_eq_false {id : ClassId} {definition : ClassDefinition}
    (defined : catalog.definition? id = some definition) (proper : definition.isInterface = false) :
    catalog.IsProper id := by
  intro other found
  rw [defined] at found
  cases found
  exact proper

/-- In a sound graph, supertypes are proper classes. -/
theorem SoundGraph.isProper_of_supertype (graph : catalog.SoundGraph) {id supertype : ClassId}
    {definition : ClassDefinition} (defined : catalog.definition? id = some definition)
    (step : definition.supertype? id = some supertype) : catalog.IsProper supertype := by
  obtain ⟨super, superFound, proper⟩ := (graph.soundReferences defined).above _ step
  exact isProper_of_isInterface_eq_false superFound proper

/-! ## Ancestry -/

/-- The supertypes of a class from the class itself up to the root. -/
inductive Ancestry (catalog : Catalog) : ClassId → List ClassId → Prop
  | root {definition : ClassDefinition}
      (defined : catalog.definition? ClassId.root = some definition) :
      Ancestry catalog ClassId.root [ClassId.root]
  | under {id supertype : ClassId} {definition : ClassDefinition} {chain : List ClassId}
      (defined : catalog.definition? id = some definition)
      (step : definition.supertype? id = some supertype)
      (above : Ancestry catalog supertype chain) : Ancestry catalog id (id :: chain)

/-- Every defined class of an accepted graph has an ancestry. The supertype comes earlier in the
order, so the induction is on the place in it. -/
theorem exists_ancestry (graph : catalog.SoundGraph) (order : catalog.ClassOrder sorted)
    {id : ClassId} (isDefined : catalog.IsDefined id) : ∃ chain, catalog.Ancestry id chain := by
  induction place : sorted.idxOf id using Nat.strong_induction_on generalizing id with
  | _ place' inductionHypothesis =>
    obtain ⟨definition, defined⟩ := isDefined
    cases step : definition.supertype? id with
    | none =>
      have isRoot : id = ClassId.root := by
        by_contra notRoot
        rw [ClassDefinition.supertype?, if_neg notRoot] at step
        cases step
      subst isRoot
      exact ⟨[ClassId.root], .root defined⟩
    | some supertype =>
      have related : catalog.Precedes supertype id := ⟨definition, defined, .inl step⟩
      have before := order.behind related
      obtain ⟨chain, above⟩ := inductionHypothesis _ (place ▸ before)
        (graph.isDefined_of_precedes related) rfl
      exact ⟨id :: chain, .under defined step above⟩

namespace Ancestry

variable {id : ClassId} {chain : List ClassId}

theorem head?_eq (ancestry : catalog.Ancestry id chain) : chain.head? = some id := by
  cases ancestry <;> rfl

theorem getLast?_eq (ancestry : catalog.Ancestry id chain) :
    chain.getLast? = some ClassId.root := by
  induction ancestry with
  | root => rfl
  | under defined step above inductionHypothesis =>
    rw [List.getLast?_cons, inductionHypothesis]
    rfl

theorem isDefined_of_mem (ancestry : catalog.Ancestry id chain) :
    ∀ ancestor ∈ chain, catalog.IsDefined ancestor := by
  induction ancestry with
  | root defined => simpa using ⟨_, defined⟩
  | under defined step above inductionHypothesis =>
    exact List.forall_mem_cons.mpr ⟨⟨_, defined⟩, inductionHypothesis⟩

/-- The proper ancestors of a class precede it. -/
theorem transGen_of_mem_tail (ancestry : catalog.Ancestry id chain) :
    ∀ ancestor ∈ chain.tail, Relation.TransGen catalog.Precedes ancestor id := by
  induction ancestry with
  | root => simp
  | @under id supertype definition chain defined step above inductionHypothesis =>
    have related : catalog.Precedes supertype id := ⟨definition, defined, .inl step⟩
    intro ancestor member
    cases above with
    | root =>
      rw [List.mem_singleton.mp member]
      exact .single related
    | under =>
      rcases List.mem_cons.mp member with rfl | higher
      · exact .single related
      · exact .tail (inductionHypothesis ancestor higher) related

theorem nodup (graph : catalog.SoundGraph) (ancestry : catalog.Ancestry id chain) :
    chain.Nodup := by
  induction ancestry with
  | root => exact List.nodup_singleton _
  | under defined step above inductionHypothesis =>
    refine List.nodup_cons.mpr ⟨fun again => ?_, inductionHypothesis⟩
    exact graph.acyclic _ ((under defined step above).transGen_of_mem_tail _ again)

theorem length_le (graph : catalog.SoundGraph) (ancestry : catalog.Ancestry id chain) :
    chain.length ≤ catalog.definitions.length :=
  length_le_of_nodup (ancestry.nodup graph) ancestry.isDefined_of_mem

end Ancestry

/-! ## Walks upwards -/

/-- The method of that name a class declares itself. -/
def ownMethod? (catalog : Catalog) (name : String) (id : ClassId) : Option MethodRef :=
  (catalog.definition? id).bind fun definition =>
    (definition.methodIndex? name).map fun index => ⟨id, index⟩

/-- The virtual slots after the methods of a class have taken part in them. -/
def overrideSlots (catalog : Catalog) (id : ClassId) (slots : List DispatchEntry) :
    List DispatchEntry :=
  match catalog.definition? id with
  | some definition => definition.methods.zipIdx.foldl (overrideSlot id) slots
  | none => slots

section Upwards

variable {id : ClassId} {chain : List ClassId} {bound : Nat}

/-- The walk to the root lists the ancestry. -/
theorem ancestorsWithin_eq (ancestry : catalog.Ancestry id chain) (enough : chain.length ≤ bound) :
    catalog.ancestorsWithin bound id = .ok chain := by
  induction ancestry generalizing bound with
  | root =>
    cases bound with
    | zero => cases enough
    | succ rest => rfl
  | @under id supertype definition chain defined step above inductionHypothesis =>
    cases bound with
    | zero => cases enough
    | succ rest =>
      rw [ancestorsWithin, supertype?_eq_ok defined, step, ok_bind]
      dsimp only
      rw [inductionHypothesis (Nat.le_of_succ_le_succ enough)]
      rfl

/-- The search for a method answers with the first ancestor that declares it. -/
theorem findMethodWithin_eq (ancestry : catalog.Ancestry id chain) (name : String)
    (enough : chain.length ≤ bound) :
    catalog.findMethodWithin name bound id = .ok (chain.findSome? (catalog.ownMethod? name)) := by
  induction ancestry generalizing bound with
  | @root definition defined =>
    cases bound with
    | zero => cases enough
    | succ rest =>
      rw [findMethodWithin, definition_eq_ok.mpr defined, ok_bind]
      cases found : definition.methodIndex? name with
      | none =>
        rw [supertype?_eq_ok defined, ok_bind]
        simp [ClassDefinition.supertype?, ownMethod?, defined, found, pure, Except.pure]
      | some index => simp [ownMethod?, defined, found, pure, Except.pure]
  | @under id supertype definition chain defined step above inductionHypothesis =>
    cases bound with
    | zero => cases enough
    | succ rest =>
      rw [findMethodWithin, definition_eq_ok.mpr defined, ok_bind]
      cases found : definition.methodIndex? name with
      | none =>
        rw [supertype?_eq_ok defined, step, ok_bind]
        dsimp only
        rw [inductionHypothesis (Nat.le_of_succ_le_succ enough)]
        simp [ownMethod?, defined, found]
      | some index => simp [ownMethod?, defined, found, pure, Except.pure]

/-- The virtual slots of a proper class come from its ancestry, the root's methods first. -/
theorem virtualSlotsWithin_eq (graph : catalog.SoundGraph) (ancestry : catalog.Ancestry id chain)
    (proper : catalog.IsProper id) (enough : chain.length ≤ bound) :
    catalog.virtualSlotsWithin bound id = .ok (chain.foldr catalog.overrideSlots []) := by
  induction ancestry generalizing bound with
  | root defined =>
    cases bound with
    | zero => cases enough
    | succ rest =>
      rw [virtualSlotsWithin, definition_eq_ok.mpr defined, ok_bind, proper _ defined,
        supertype?_eq_ok defined, ok_bind]
      simp [ClassDefinition.supertype?, overrideSlots, defined, pure, Except.pure, ok_bind]
  | under defined step above inductionHypothesis =>
    cases bound with
    | zero => cases enough
    | succ rest =>
      have superIsProper := graph.isProper_of_supertype defined step
      rw [virtualSlotsWithin, definition_eq_ok.mpr defined, ok_bind, proper _ defined,
        supertype?_eq_ok defined, step, ok_bind]
      dsimp only
      rw [inductionHypothesis superIsProper (Nat.le_of_succ_le_succ enough)]
      simp [overrideSlots, defined, ok_bind, pure, Except.pure]

/-- An interface has no virtual slots. -/
theorem virtualSlotsWithin_eq_nil {definition : ClassDefinition}
    (defined : catalog.definition? id = some definition)
    (isInterface : definition.isInterface = true)
    (enough : 0 < bound) : catalog.virtualSlotsWithin bound id = .ok [] := by
  cases bound with
  | zero => cases enough
  | succ rest =>
    rw [virtualSlotsWithin, definition_eq_ok.mpr defined, ok_bind, isInterface]
    rfl

end Upwards

/-! ## Walks over interfaces -/

section Interfaces

variable {id : ClassId}

theorem ClassOrder.length_le (order : catalog.ClassOrder sorted) :
    sorted.length ≤ catalog.definitions.length :=
  length_le_of_nodup order.distinct fun id member => (order.complete id).mp member

theorem ClassOrder.idxOf_lt (order : catalog.ClassOrder sorted) (isDefined : catalog.IsDefined id) :
    sorted.idxOf id < catalog.definitions.length :=
  Nat.lt_of_lt_of_le (List.idxOf_lt_length_of_mem ((order.complete id).mpr isDefined))
    order.length_le

theorem length_definitions_lt_walkBound (catalog : Catalog) :
    catalog.definitions.length < catalog.walkBound := by
  have := length_definitions_le catalog
  rw [walkBound]
  omega

/-- Adding a defined interface succeeds under any bound above its place in the order, and adds
nothing but the interface and what precedes it. -/
theorem exists_addInterface (graph : catalog.SoundGraph) (order : catalog.ClassOrder sorted)
    {interface : ClassId} (isDefined : catalog.IsDefined interface) (found : List ClassId) :
    ∃ result, (∀ bound, sorted.idxOf interface < bound →
        catalog.addInterface bound found interface = .ok result) ∧
      ∀ other ∈ result, other ∈ found ∨ Relation.ReflTransGen catalog.Precedes other interface := by
  induction place : sorted.idxOf interface using Nat.strong_induction_on
    generalizing interface found with
  | _ place' inductionHypothesis =>
    by_cases known : interface ∈ found
    · refine ⟨found, fun bound enough => ?_, fun other member => .inl member⟩
      cases bound with
      | zero => cases enough
      | succ rest => rw [addInterface, if_pos known]
    · obtain ⟨definition, defined⟩ := isDefined
      let onlyAdds (state : List ClassId) : Prop := ∀ other ∈ state,
        other ∈ found ∨ Relation.ReflTransGen catalog.Precedes other interface
      have each : ∀ listed ∈ definition.interfaces, ∀ state, onlyAdds state →
          ∃ next, (∀ bound, place' ≤ bound → catalog.addInterface bound state listed = .ok next) ∧
            onlyAdds next := by
        intro listed member state holds
        have related : catalog.Precedes listed interface := ⟨definition, defined, .inr member⟩
        have before := order.behind related
        obtain ⟨next, added, reached⟩ := inductionHypothesis _ (place ▸ before)
          (graph.isDefined_of_precedes related) state rfl
        refine ⟨next, fun bound enough => added bound (by omega), fun other inNext => ?_⟩
        rcases reached other inNext with old | path
        · exact holds other old
        · exact .inr (path.tail related)
      have start : onlyAdds (found ++ [interface]) := by
        intro other member
        rcases List.mem_append.mp member with old | new
        · exact .inl old
        · rw [List.mem_singleton.mp new]
          exact .inr .refl
      obtain ⟨result, folded, reached⟩ :=
        exists_foldlM_eq_ok catalog.addInterface (place' ≤ ·) onlyAdds each start
      refine ⟨result, fun bound enough => ?_, reached⟩
      cases bound with
      | zero => cases enough
      | succ rest =>
        rw [addInterface, if_neg known, definition_eq_ok.mpr defined, ok_bind]
        exact folded rest (by omega)

/-- Adding the interfaces a class lists itself succeeds under the bound of all walks. -/
theorem exists_addListed (graph : catalog.SoundGraph) (order : catalog.ClassOrder sorted)
    {definition : ClassDefinition} (defined : catalog.definition? id = some definition)
    (found : List ClassId) :
    ∃ result, definition.interfaces.foldlM (catalog.addInterface catalog.walkBound) found =
        .ok result ∧
      ∀ other ∈ result, other ∈ found ∨ Relation.TransGen catalog.Precedes other id := by
  let onlyAdds (state : List ClassId) : Prop := ∀ other ∈ state,
    other ∈ found ∨ Relation.TransGen catalog.Precedes other id
  have each : ∀ listed ∈ definition.interfaces, ∀ state, onlyAdds state →
      ∃ next, (∀ bound, bound = catalog.walkBound →
        catalog.addInterface bound state listed = .ok next) ∧ onlyAdds next := by
    intro listed member state holds
    have related : catalog.Precedes listed id := ⟨definition, defined, .inr member⟩
    have isDefined := graph.isDefined_of_precedes related
    obtain ⟨next, added, reached⟩ := exists_addInterface graph order isDefined state
    refine ⟨next, fun bound usual => added bound ?_, fun other inNext => ?_⟩
    · rw [usual]
      exact (order.idxOf_lt isDefined).trans (length_definitions_lt_walkBound catalog)
    · rcases reached other inNext with old | path
      · exact holds other old
      · exact .inr (.tail' path related)
  obtain ⟨result, folded, reached⟩ := exists_foldlM_eq_ok catalog.addInterface
    (· = catalog.walkBound) onlyAdds each (fun other old => .inl old)
  exact ⟨result, folded _ rfl, reached⟩

/-- Collecting the interfaces of a class succeeds under any bound its ancestry keeps to, and finds
nothing but what precedes the class. -/
theorem exists_addInterfacesOf (graph : catalog.SoundGraph) (order : catalog.ClassOrder sorted)
    {chain : List ClassId} (ancestry : catalog.Ancestry id chain) (found : List ClassId) :
    ∃ result, (∀ bound, chain.length ≤ bound →
        catalog.addInterfacesOf bound found id = .ok result) ∧
      ∀ other ∈ result, other ∈ found ∨ Relation.TransGen catalog.Precedes other id := by
  induction ancestry generalizing found with
  | @root definition defined =>
    obtain ⟨result, added, reached⟩ := exists_addListed graph order defined found
    refine ⟨result, fun bound enough => ?_, reached⟩
    cases bound with
    | zero => cases enough
    | succ rest =>
      rw [addInterfacesOf, definition_eq_ok.mpr defined, ok_bind, added, ok_bind,
        supertype?_eq_ok defined]
      cases definition.isInterface <;> rfl
  | @under id supertype definition chain defined step above inductionHypothesis =>
    obtain ⟨own, added, ownReached⟩ := exists_addListed graph order defined found
    by_cases isInterface : definition.isInterface
    · refine ⟨own, fun bound enough => ?_, ownReached⟩
      cases bound with
      | zero => cases enough
      | succ rest =>
        rw [addInterfacesOf, definition_eq_ok.mpr defined, ok_bind, added, ok_bind,
          if_pos isInterface]
        rfl
    · obtain ⟨result, inherited, reached⟩ := inductionHypothesis own
      have related : catalog.Precedes supertype id := ⟨definition, defined, .inl step⟩
      refine ⟨result, fun bound enough => ?_, fun other member => ?_⟩
      · cases bound with
        | zero => cases enough
        | succ rest =>
          rw [addInterfacesOf, definition_eq_ok.mpr defined, ok_bind, added, ok_bind,
            if_neg isInterface, supertype?_eq_ok defined, step, ok_bind]
          exact inherited rest (Nat.le_of_succ_le_succ enough)
      · rcases reached other member with old | path
        · exact ownReached other old
        · exact .inr (path.tail related)

end Interfaces

/-! ## The walks under their usual bound -/

section Usual

variable {id : ClassId}

theorem SoundGraph.isDefined_of_transGen (graph : catalog.SoundGraph) {earlier later : ClassId}
    (path : Relation.TransGen catalog.Precedes earlier later) : catalog.IsDefined earlier := by
  induction path using Relation.TransGen.head_induction_on with
  | single related => exact graph.isDefined_of_precedes related
  | head related _ _ => exact graph.isDefined_of_precedes related

theorem Ancestry.length_lt_walkBound {chain : List ClassId} (graph : catalog.SoundGraph)
    (ancestry : catalog.Ancestry id chain) : chain.length < catalog.walkBound :=
  Nat.lt_of_le_of_lt (ancestry.length_le graph) (length_definitions_lt_walkBound catalog)

theorem hierarchy_eq {chain : List ClassId} (graph : catalog.SoundGraph)
    (ancestry : catalog.Ancestry id chain) : catalog.hierarchy id = .ok chain.reverse := by
  rw [hierarchy, ancestorsWithin_eq ancestry (ancestry.length_lt_walkBound graph).le]
  rfl

theorem exists_findMethod (graph : catalog.SoundGraph) (order : catalog.ClassOrder sorted)
    (isDefined : catalog.IsDefined id) (name : String) :
    ∃ method, catalog.findMethod id name = .ok method := by
  obtain ⟨chain, ancestry⟩ := exists_ancestry graph order isDefined
  exact ⟨_, findMethodWithin_eq ancestry name (ancestry.length_lt_walkBound graph).le⟩

theorem exists_virtualSlots (graph : catalog.SoundGraph) (order : catalog.ClassOrder sorted)
    (isDefined : catalog.IsDefined id) : ∃ slots, catalog.virtualSlots id = .ok slots := by
  obtain ⟨definition, defined⟩ := isDefined
  cases isInterface : definition.isInterface with
  | true => exact ⟨[], virtualSlotsWithin_eq_nil defined isInterface (by rw [walkBound]; omega)⟩
  | false =>
    obtain ⟨chain, ancestry⟩ := exists_ancestry graph order ⟨definition, defined⟩
    have proper := isProper_of_isInterface_eq_false defined isInterface
    exact ⟨_, virtualSlotsWithin_eq graph ancestry proper (ancestry.length_lt_walkBound graph).le⟩

/-- The interfaces of a class are found, and each of them precedes the class. -/
theorem exists_interfaces (graph : catalog.SoundGraph) (order : catalog.ClassOrder sorted)
    (isDefined : catalog.IsDefined id) :
    ∃ found, catalog.interfaces id = .ok found ∧
      ∀ interface ∈ found, Relation.TransGen catalog.Precedes interface id := by
  obtain ⟨chain, ancestry⟩ := exists_ancestry graph order isDefined
  obtain ⟨found, collected, reached⟩ := exists_addInterfacesOf graph order ancestry []
  refine ⟨found, collected _ (ancestry.length_lt_walkBound graph).le, fun interface member => ?_⟩
  exact (reached interface member).resolve_left (List.not_mem_nil)

theorem exists_interfaceMembers (graph : catalog.SoundGraph) (order : catalog.ClassOrder sorted)
    (isDefined : catalog.IsDefined id) : ∃ entries, catalog.interfaceMembers id = .ok entries := by
  obtain ⟨found, collected, reached⟩ := exists_interfaces graph order isDefined
  have allDefined : ∀ other ∈ id :: found, catalog.IsDefined other :=
    List.forall_mem_cons.mpr
      ⟨isDefined, fun other member => graph.isDefined_of_transGen (reached other member)⟩
  rw [interfaceMembers, collected, ok_bind]
  refine exists_foldlM_eq_ok_of_each (fun other member entries => ?_) []
  obtain ⟨definition, defined⟩ := allDefined other member
  rw [definition_eq_ok.mpr defined]
  exact ⟨_, rfl⟩

theorem exists_members (graph : catalog.SoundGraph) (order : catalog.ClassOrder sorted)
    (isDefined : catalog.IsDefined id) : ∃ entries, catalog.members id = .ok entries := by
  obtain ⟨definition, defined⟩ := isDefined
  obtain ⟨slots, slotsFound⟩ := exists_virtualSlots graph order ⟨definition, defined⟩
  obtain ⟨found, collected, reached⟩ := exists_interfaces graph order ⟨definition, defined⟩
  obtain ⟨offered, answered⟩ : ∃ offered, found.mapM catalog.interfaceMembers = .ok offered :=
    exists_mapM_eq_ok fun interface member =>
      exists_interfaceMembers graph order (graph.isDefined_of_transGen (reached interface member))
  rw [members, slotsFound, ok_bind, definition_eq_ok.mpr defined, ok_bind, collected, ok_bind,
    answered, ok_bind]
  refine exists_foldlM_eq_ok_of_each (fun member _ entries => ?_) slots
  obtain ⟨method, answer⟩ := exists_findMethod graph order ⟨definition, defined⟩ member.name
  rw [addInterfaceMember]
  cases hasMember entries member.name with
  | true => exact ⟨entries, rfl⟩
  | false =>
    rw [answer]
    cases definition.isInterface <;> exact ⟨_, rfl⟩

end Usual

/-! ## Lengths of chains -/

/-- One class is declared inside another. -/
def NestedIn (catalog : Catalog) (inner outer : ClassId) : Prop :=
  ∃ definition, catalog.definition? inner = some definition ∧ definition.scope = .nested outer

theorem EnclosedBy.mem_of_transGen {id outer : ClassId} {definition : ClassDefinition}
    {outers : List ClassId} (defined : catalog.definition? id = some definition)
    (around : catalog.EnclosedBy definition.scope outers)
    (path : Relation.TransGen catalog.NestedIn id outer) : outer ∈ outers := by
  induction path using Relation.TransGen.head_induction_on generalizing definition outers with
  | @single id related =>
    obtain ⟨same, found, scope⟩ := related
    rw [defined] at found
    cases found
    rw [scope] at around
    cases around with
    | outermost notNested => exact absurd rfl (notNested outer)
    | nested defined around => exact List.mem_cons_self
  | @head id middle related _ inductionHypothesis =>
    obtain ⟨same, found, scope⟩ := related
    rw [defined] at found
    cases found
    rw [scope] at around
    cases around with
    | outermost notNested => exact absurd rfl (notNested middle)
    | nested middleDefined further =>
      exact List.mem_cons_of_mem _ (inductionHypothesis middleDefined further)

theorem SoundGraph.isDefined_of_nestedIn (graph : catalog.SoundGraph) {inner outer : ClassId}
    (related : catalog.NestedIn inner outer) : catalog.IsDefined outer := by
  obtain ⟨definition, defined, scope⟩ := related
  obtain ⟨outers, around, _⟩ := graph.enclosing defined
  have path : catalog.NestedIn inner outer := ⟨definition, defined, scope⟩
  exact around.isDefined_of_mem outer (around.mem_of_transGen defined (.single path))

theorem SoundGraph.nestedIn_acyclic (graph : catalog.SoundGraph) (id : ClassId) :
    ¬ Relation.TransGen catalog.NestedIn id id := by
  intro circle
  obtain ⟨definition, defined⟩ : catalog.IsDefined id := by
    cases circle using Relation.TransGen.head_induction_on with
    | single related => exact ⟨_, related.choose_spec.1⟩
    | head related _ _ => exact ⟨_, related.choose_spec.1⟩
  obtain ⟨outers, around, distinct⟩ := graph.enclosing defined
  exact (List.nodup_cons.mp distinct).1 (around.mem_of_transGen defined circle)

/-- A chain of steps between defined classes that never return is no longer than there are
classes. -/
theorem length_le_of_isChain {step : ClassId → ClassId → Prop} {id : ClassId}
    (isDefined : catalog.IsDefined id)
    (stepDefined : ∀ {first second}, step first second → catalog.IsDefined second)
    (acyclic : ∀ other, ¬ Relation.TransGen step other other) {chain : List ClassId}
    (linked : (id :: chain).IsChain step) :
    (id :: chain).length ≤ catalog.definitions.length := by
  have paths : (id :: chain).Pairwise (Relation.TransGen step) :=
    List.isChain_iff_pairwise.mp (linked.imp fun _ _ => Relation.TransGen.single)
  refine length_le_of_nodup (paths.imp ?_) (List.forall_mem_cons.mpr ⟨isDefined, ?_⟩)
  · rintro first second path rfl
    exact acyclic first path
  · intro other member
    have path := List.rel_of_pairwise_cons paths member
    cases path with
    | single related => exact stepDefined related
    | tail _ related => exact stepDefined related

end Catalog

end TypeRecords
