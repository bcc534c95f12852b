import TypeRecords.Proofs.Class.Depth
import TypeRecords.Proofs.Class.Walk

/-!
Catalogs with the same entries in another order.

Owns what two such catalogs share: every lookup, every walk over supertypes, interfaces and
enclosing classes, and the order of the classes. A walk only looks classes up by number, so the
equality of the lookups carries through its recursion. The order of the classes is read off the
depths, because the rounds of the two schedules start from differently ordered tasks.
-/

namespace TypeRecords

theorem OrderedMap.find?_eq_of_perm {κ α : Type} [DecidableEq κ] {first second : OrderedMap κ α}
    (same : first.entries.Perm second.entries) : first.find? = second.find? := by
  funext key
  apply Option.ext
  intro value
  rw [find?_eq_some_iff, find?_eq_some_iff, same.mem_iff]

namespace Catalog

/-- Whether two catalogs have the same classes, functions and boxes under the same numbers. -/
structure SameEntries (first second : Catalog) : Prop where
  classes : first.classes.entries.Perm second.classes.entries
  functions : first.functions.entries.Perm second.functions.entries
  valueBoxes : first.valueBoxes.entries.Perm second.valueBoxes.entries

namespace SameEntries

variable {first second : Catalog}

theorem symm (same : first.SameEntries second) : second.SameEntries first :=
  ⟨same.classes.symm, same.functions.symm, same.valueBoxes.symm⟩

/-! ## Lookups -/

section Lookups

variable (same : first.SameEntries second)
include same

theorem definition?_eq : first.definition? = second.definition? := by
  funext id
  simp only [definition?, OrderedMap.find?_eq_of_perm same.classes]

theorem definition_eq : first.definition = second.definition := by
  funext id
  simp only [definition, OrderedMap.find?_eq_of_perm same.classes]

theorem className?_eq : first.className? = second.className? := by
  funext id
  simp only [className?, OrderedMap.find?_eq_of_perm same.classes]

theorem boxedClass?_eq : first.boxedClass? = second.boxedClass? := by
  funext id
  simp only [boxedClass?, OrderedMap.find?_eq_of_perm same.valueBoxes]

theorem walkBound_eq : first.walkBound = second.walkBound := by
  simp only [walkBound, OrderedMap.size, same.classes.length_eq]

theorem method?_eq : first.method? = second.method? := by
  funext method
  simp only [method?, same.definition?_eq]

theorem describeMethod_eq : first.describeMethod = second.describeMethod := by
  funext method
  simp only [describeMethod, same.className?_eq, same.method?_eq]

theorem supertype?_eq : first.supertype? = second.supertype? := by
  funext id
  simp only [supertype?, same.definition_eq]

end Lookups

/-! ## Walks -/

section Walks

variable (same : first.SameEntries second)
include same

theorem ancestorsWithin_eq : first.ancestorsWithin = second.ancestorsWithin := by
  funext bound
  induction bound with
  | zero => rfl
  | succ bound inductionHypothesis =>
    funext id
    simp only [ancestorsWithin, same.supertype?_eq, inductionHypothesis]

theorem hierarchy_eq : first.hierarchy = second.hierarchy := by
  funext id
  simp only [hierarchy, same.ancestorsWithin_eq, same.walkBound_eq]

theorem findMethodWithin_eq (name : String) :
    first.findMethodWithin name = second.findMethodWithin name := by
  funext bound
  induction bound with
  | zero => rfl
  | succ bound inductionHypothesis =>
    funext id
    simp only [findMethodWithin, same.definition_eq, same.supertype?_eq, inductionHypothesis]

theorem findMethod_eq : first.findMethod = second.findMethod := by
  funext id name
  simp only [findMethod, same.findMethodWithin_eq, same.walkBound_eq]

theorem addInterface_eq : first.addInterface = second.addInterface := by
  funext bound
  induction bound with
  | zero => rfl
  | succ bound inductionHypothesis =>
    funext found interface
    simp only [addInterface, same.definition_eq, inductionHypothesis]

theorem addInterfacesOf_eq : first.addInterfacesOf = second.addInterfacesOf := by
  funext bound
  induction bound with
  | zero => rfl
  | succ bound inductionHypothesis =>
    funext found id
    simp only [addInterfacesOf, same.definition_eq, same.addInterface_eq, same.walkBound_eq,
      same.supertype?_eq, inductionHypothesis]

theorem interfaces_eq : first.interfaces = second.interfaces := by
  funext id
  simp only [interfaces, same.addInterfacesOf_eq, same.walkBound_eq]

theorem virtualSlotsWithin_eq : first.virtualSlotsWithin = second.virtualSlotsWithin := by
  funext bound
  induction bound with
  | zero => rfl
  | succ bound inductionHypothesis =>
    funext id
    simp only [virtualSlotsWithin, same.definition_eq, same.supertype?_eq, inductionHypothesis]

theorem virtualSlots_eq : first.virtualSlots = second.virtualSlots := by
  funext id
  simp only [virtualSlots, same.virtualSlotsWithin_eq, same.walkBound_eq]

theorem interfaceMembers_eq : first.interfaceMembers = second.interfaceMembers := by
  funext interface
  simp only [interfaceMembers, same.interfaces_eq, same.definition_eq]

theorem addInterfaceMember_eq : first.addInterfaceMember = second.addInterfaceMember := by
  funext id isInterface entries member
  simp only [addInterfaceMember, same.findMethod_eq]

theorem members_eq : first.members = second.members := by
  funext id
  simp only [members, same.virtualSlots_eq, same.definition_eq, same.interfaces_eq,
    same.interfaceMembers_eq, same.addInterfaceMember_eq]

end Walks

/-! ## The order of the classes -/

section Order

variable (same : first.SameEntries second)
include same

theorem isDefined_iff {id : ClassId} : first.IsDefined id ↔ second.IsDefined id := by
  simp only [IsDefined, same.definition?_eq]

theorem precedes_iff {earlier later : ClassId} :
    first.Precedes earlier later ↔ second.Precedes earlier later := by
  simp only [Precedes, same.definition?_eq]

theorem enclosedBy {scope : ClassScope} {outers : List ClassId}
    (around : first.EnclosedBy scope outers) : second.EnclosedBy scope outers := by
  induction around with
  | outermost notNested => exact .outermost notNested
  | nested defined _ inductionHypothesis =>
    rw [same.definition?_eq] at defined
    exact .nested defined inductionHypothesis

theorem soundGraph (graph : first.SoundGraph) : second.SoundGraph := by
  have root := graph.root
  have namesDistinct := @graph.namesDistinct
  have supertypes := @graph.supertypes
  have interfaces := @graph.interfaces
  have enclosing := @graph.enclosing
  have boxes := @graph.boxes
  rw [same.definition?_eq] at root namesDistinct supertypes interfaces enclosing
  rw [same.boxedClass?_eq] at boxes
  refine ⟨root, namesDistinct, supertypes, interfaces, ?_, ?_, ?_⟩
  · intro id definition defined
    obtain ⟨outers, around, distinct⟩ := enclosing defined
    exact ⟨outers, same.enclosedBy around, distinct⟩
  · intro box value boxed
    have bothDefined := boxes boxed
    exact ⟨same.isDefined_iff.mp bothDefined.1, same.isDefined_iff.mp bothDefined.2⟩
  · intro id circle
    apply graph.acyclic id
    exact Relation.TransGen.mono (fun _ _ related => same.precedes_iff.mpr related) _ _ circle

theorem dependencyChain {length : Nat} {id : ClassId} (chain : first.DependencyChain length id) :
    second.DependencyChain length id := by
  induction chain with
  | start isDefined => exact .start (same.isDefined_iff.mp isDefined)
  | step _ related inductionHypothesis =>
    exact .step inductionHypothesis (same.precedes_iff.mp related)

theorem hasDepth {id : ClassId} {depth : Nat} (holds : first.HasDepth id depth) :
    second.HasDepth id depth :=
  ⟨same.dependencyChain holds.reached, fun chain => holds.longest (same.symm.dependencyChain chain)⟩

theorem groupedByDepth {sorted : List ClassId} (grouped : first.GroupedByDepth sorted) :
    second.GroupedByDepth sorted := by
  refine ⟨fun id member => ?_, ?_⟩
  · obtain ⟨depth, holds⟩ := grouped.hasDepth id member
    exact ⟨depth, same.hasDepth holds⟩
  · apply grouped.ordered.imp
    intro left right before m n leftDepth rightDepth
    exact before m n (same.symm.hasDepth leftDepth) (same.symm.hasDepth rightDepth)

/-- The order answered for one catalog is the order answered for the other. -/
theorem sortClasses_eq_ok_of_sameEntries {sorted : List ClassId}
    (accepted : first.sortClasses = .ok sorted) : second.sortClasses = .ok sorted := by
  have graph := same.soundGraph (soundGraph_of_sortClasses accepted)
  obtain ⟨other, otherAccepted⟩ := graph.exists_sortClasses
  have order := classOrder_of_sortClasses accepted
  have otherOrder := classOrder_of_sortClasses otherAccepted
  have sameClasses : sorted.Perm other := by
    apply (List.perm_ext_iff_of_nodup order.distinct otherOrder.distinct).mpr
    intro id
    rw [order.complete, otherOrder.complete, same.isDefined_iff]
  have grouped := same.groupedByDepth (groupedByDepth_of_sortClasses accepted)
  have sameOrder : sorted = other :=
    grouped.eq_of_perm (groupedByDepth_of_sortClasses otherAccepted) sameClasses
  rw [sameOrder]
  exact otherAccepted

end Order

end SameEntries

end Catalog

end TypeRecords
