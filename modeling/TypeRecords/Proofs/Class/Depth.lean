import TypeRecords.Proofs.Class.Graph

/-!
How deep a class lies in the class graph.

Owns the depth of a class, which is the number of dependencies in the longest chain that leads to
it, and what it has to do with the order of the classes: `Catalog.sortClasses` goes by depth, and by
number within a depth. This leaves only one order for a class graph, so the order in which the
classes were described does not matter.
-/

namespace TypeRecords

namespace Catalog

variable {catalog : Catalog} {id : ClassId}

/-! ## Depth -/

/-- A chain of that many dependencies, from class to class, that leads to a class. -/
inductive DependencyChain (catalog : Catalog) : Nat → ClassId → Prop
  | start {id : ClassId} (isDefined : catalog.IsDefined id) : DependencyChain catalog 0 id
  | step {earlier later : ClassId} {length : Nat}
      (before : DependencyChain catalog length earlier) (related : catalog.Precedes earlier later) :
      DependencyChain catalog (length + 1) later

/-- Whether the longest chain of dependencies that leads to a class has that length. -/
structure HasDepth (catalog : Catalog) (id : ClassId) (depth : Nat) : Prop where
  reached : catalog.DependencyChain depth id
  longest : ∀ {length}, catalog.DependencyChain length id → length ≤ depth

theorem HasDepth.unique {first second : Nat} (firstDepth : catalog.HasDepth id first)
    (secondDepth : catalog.HasDepth id second) : first = second :=
  Nat.le_antisymm (secondDepth.longest firstDepth.reached) (firstDepth.longest secondDepth.reached)

/-- Chains of dependencies are the chains of needs among the tasks of ordering the classes. -/
theorem dependencyChain_iff {length : Nat} :
    catalog.DependencyChain length id ↔ Task.ChainTo catalog.orderTasks length id := by
  constructor
  · intro chain
    induction chain with
    | start isDefined =>
      obtain ⟨definition, defined⟩ := isDefined
      have task := List.mem_map_of_mem (f := orderTask) (mem_definitions.mpr defined)
      exact .start task
    | step _ related inductionHypothesis =>
      obtain ⟨definition, defined, related⟩ := related
      have task := List.mem_map_of_mem (f := orderTask) (mem_definitions.mpr defined)
      exact .step task (mem_predecessors.mpr related) inductionHypothesis
  · intro chain
    induction chain with
    | start member =>
      obtain ⟨⟨id, definition⟩, listed, rfl⟩ := List.mem_map.mp member
      exact .start ⟨definition, mem_definitions.mp listed⟩
    | step member needed _ inductionHypothesis =>
      obtain ⟨⟨id, definition⟩, listed, rfl⟩ := List.mem_map.mp member
      have related := mem_predecessors.mp needed
      exact .step inductionHypothesis ⟨definition, mem_definitions.mp listed, related⟩

theorem hasDepth_iff {depth : Nat} :
    catalog.HasDepth id depth ↔ Task.Depth catalog.orderTasks id depth := by
  constructor
  · intro holds
    exact ⟨dependencyChain_iff.mp holds.reached,
      fun chain => holds.longest (dependencyChain_iff.mpr chain)⟩
  · intro holds
    exact ⟨dependencyChain_iff.mpr holds.reached,
      fun chain => holds.longest (dependencyChain_iff.mp chain)⟩

/-! ## The order of the classes -/

/-- Whether classes stand in ascending order of their depth, and of their numbers within a depth. -/
structure GroupedByDepth (catalog : Catalog) (sorted : List ClassId) : Prop where
  hasDepth : ∀ id ∈ sorted, ∃ depth, catalog.HasDepth id depth
  ordered : sorted.Pairwise fun first second =>
    ∀ firstDepth secondDepth, catalog.HasDepth first firstDepth →
      catalog.HasDepth second secondDepth →
        firstDepth < secondDepth ∨ firstDepth = secondDepth ∧ first.number < second.number

theorem atMost_trans (first second third : ClassId) (lower : first.atMost second)
    (upper : second.atMost third) : first.atMost third := by
  simp only [ClassId.atMost, decide_eq_true_eq] at *
  omega

theorem atMost_total (first second : ClassId) : first.atMost second || second.atMost first := by
  simp only [ClassId.atMost, Bool.or_eq_true, decide_eq_true_eq]
  omega

/-- The order answered for a class graph goes by depth, and by number within a depth. -/
theorem groupedByDepth_of_sortClasses {sorted : List ClassId}
    (accepted : catalog.sortClasses = .ok sorted) : catalog.GroupedByDepth sorted := by
  have distinct := (classOrder_of_sortClasses accepted).distinct
  obtain ⟨_, _, _, _, _, rfl⟩ := sortClasses_eq_ok.mp accepted
  have tasksDistinct := items_orderTasks_nodup catalog
  refine ⟨fun id member => ?_, ?_⟩
  · obtain ⟨depth, holds⟩ :=
      Task.exists_depth_of_mem_schedule ClassId.atMost catalog.orderTasks tasksDistinct id member
    exact ⟨depth, hasDepth_iff.mpr holds⟩
  · have ordered := Task.schedule_pairwise atMost_trans atMost_total tasksDistinct
    apply (ordered.and distinct).imp
    intro first second ⟨before, differs⟩ m n firstDepth secondDepth
    rcases before m n (hasDepth_iff.mp firstDepth) (hasDepth_iff.mp secondDepth) with
      shallower | ⟨same, inOrder⟩
    · exact .inl shallower
    · have numbersDiffer : first.number ≠ second.number := by
        intro sameNumber
        cases first
        cases second
        simp_all
      simp only [ClassId.atMost, decide_eq_true_eq] at inOrder
      exact .inr ⟨same, by omega⟩

/-- Two lists of the same classes that go by depth are the same list. -/
theorem GroupedByDepth.eq_of_perm {first second : List ClassId}
    (firstGrouped : catalog.GroupedByDepth first) (secondGrouped : catalog.GroupedByDepth second)
    (same : first.Perm second) : first = second := by
  refine List.Perm.eq_of_pairwise ?_ firstGrouped.ordered secondGrouped.ordered same
  intro left right leftMember rightMember forth back
  obtain ⟨m, leftDepth⟩ := firstGrouped.hasDepth left leftMember
  obtain ⟨n, rightDepth⟩ := secondGrouped.hasDepth right rightMember
  have lower := forth m n leftDepth rightDepth
  have upper := back n m rightDepth leftDepth
  omega

end Catalog

end TypeRecords
