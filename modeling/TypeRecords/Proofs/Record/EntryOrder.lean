import TypeRecords.Proofs.Class.EntryOrder
import TypeRecords.Record.Module

/-!
Modules of catalogs with the same entries.

Owns that the order in which classes, functions and boxes were described leaves no trace in a
generated module. What is asked about a class is answered alike, so every build step is the same
step, and the steps come in the same order.
-/

namespace TypeRecords

namespace Catalog.SameEntries

variable {first second : Catalog} (same : first.SameEntries second)
include same

/-! ## Answers about a class -/

theorem instanceFields_eq : first.instanceFields = second.instanceFields := by
  funext id
  simp only [instanceFields, same.hierarchy_eq, same.definition_eq]

theorem instanceLayout_eq : first.instanceLayout = second.instanceLayout := by
  funext target id
  simp only [instanceLayout, same.instanceFields_eq, same.definition_eq]

theorem declaredMethod_eq : first.declaredMethod = second.declaredMethod := by
  funext method
  simp only [declaredMethod, same.method?_eq, same.describeMethod_eq]

theorem requiredFunction_eq : first.requiredFunction = second.requiredFunction := by
  funext method definition
  simp only [requiredFunction, same.describeMethod_eq]

theorem methodRecord_eq : first.methodRecord = second.methodRecord := by
  funext entry
  simp only [methodRecord, entryPoint, same.declaredMethod_eq, same.requiredFunction_eq]

theorem sortDistinct_eq : first.sortDistinct = second.sortDistinct := by
  funext className records
  simp only [sortDistinct, describeRecord, same.describeMethod_eq]

theorem methodTable_eq : first.methodTable = second.methodTable := by
  funext id
  simp only [methodTable, same.definition_eq, same.members_eq, same.methodRecord_eq,
    same.sortDistinct_eq]

theorem virtualTable_eq : first.virtualTable = second.virtualTable := by
  funext id
  simp only [virtualTable, slotEntryPoint, same.virtualSlots_eq, same.declaredMethod_eq,
    same.requiredFunction_eq]

theorem enclosingWithin_eq : first.enclosingWithin = second.enclosingWithin := by
  funext bound
  induction bound with
  | zero =>
    funext definition
    unfold enclosingWithin
    rfl
  | succ bound inductionHypothesis =>
    funext definition
    unfold enclosingWithin
    simp only [same.definition_eq, inductionHypothesis]

theorem reflectedName_eq : first.reflectedName = second.reflectedName := by
  funext id
  simp only [reflectedName, reflectDefinition, same.boxedClass?_eq, same.definition_eq,
    same.enclosingWithin_eq, same.walkBound_eq]

/-! ## Build steps -/

theorem recordVirtualTable_eq (target : Target) :
    (Generator.mk first target).recordVirtualTable =
      (Generator.mk second target).recordVirtualTable := by
  funext id definition
  simp only [Generator.recordVirtualTable, same.virtualTable_eq]

theorem declareRecord_eq (target : Target) :
    (Generator.mk first target).declareRecord = (Generator.mk second target).declareRecord := by
  funext id
  simp only [Generator.declareRecord, Generator.placeExtension, same.definition_eq]

theorem generateRecord_eq (target : Target) :
    (Generator.mk first target).generateRecord = (Generator.mk second target).generateRecord := by
  funext id
  simp only [Generator.generateRecord, Generator.exportRecord, same.definition_eq,
    same.instanceLayout_eq, same.supertype?_eq, same.interfaces_eq, same.methodTable_eq,
    same.reflectedName_eq, same.recordVirtualTable_eq]

theorem buildAll_eq (target : Target) :
    (Generator.mk first target).buildAll = (Generator.mk second target).buildAll := by
  funext classes
  simp only [Generator.buildAll, same.declareRecord_eq, same.generateRecord_eq]

/-- A module that is generated for one catalog is generated for the other, the same in all parts. -/
theorem generateModule_eq_ok_of_sameEntries {target : Target} {assembly : Assembly}
    (generated : generateModule first target = .ok assembly) :
    generateModule second target = .ok assembly := by
  unfold generateModule at generated ⊢
  cases accepted : first.sortClasses with
  | error failure =>
    rw [accepted] at generated
    cases generated
  | ok sorted =>
    rw [accepted] at generated
    rw [same.sortClasses_eq_ok_of_sameEntries accepted, ← same.buildAll_eq]
    exact generated

end Catalog.SameEntries

/-! ## Main result -/

/-- The order in which a catalog was filled has no effect: the classes get one order, by depth and
by number, and one module. -/
theorem sortClasses_generateModule_of_sameEntries {first second : Catalog}
    (same : first.SameEntries second) :
    (∀ sorted, first.sortClasses = .ok sorted ↔ second.sortClasses = .ok sorted) ∧
      (∀ sorted, first.sortClasses = .ok sorted →
        first.ClassOrder sorted ∧ first.GroupedByDepth sorted) ∧
      ∀ target assembly, generateModule first target = .ok assembly ↔
        generateModule second target = .ok assembly := by
  refine ⟨fun sorted => ?_, fun sorted accepted => ?_, fun target assembly => ?_⟩
  · exact ⟨same.sortClasses_eq_ok_of_sameEntries, same.symm.sortClasses_eq_ok_of_sameEntries⟩
  · exact ⟨Catalog.classOrder_of_sortClasses accepted,
      Catalog.groupedByDepth_of_sortClasses accepted⟩
  · exact ⟨same.generateModule_eq_ok_of_sameEntries,
      same.symm.generateModule_eq_ok_of_sameEntries⟩

/-- The entries of a map from the last to the first. -/
def OrderedMap.reverse {κ α : Type} (map : OrderedMap κ α) : OrderedMap κ α where
  entries := map.entries.reverse
  keysDistinct := by
    rw [List.map_reverse, List.nodup_reverse]
    exact map.keysDistinct

/-- The sample classes, described from the last to the first. -/
def Catalog.reversedShapes : Catalog where
  classes := shapes.classes.reverse
  functions := shapes.functions.reverse
  valueBoxes := shapes.valueBoxes.reverse

theorem reversedShapes_sortClasses_and_generateModule :
    Catalog.shapes.SameEntries Catalog.reversedShapes ∧
      Catalog.reversedShapes.sortClasses = .ok [ClassId.root, ⟨2⟩, ⟨1⟩, ⟨3⟩, ⟨4⟩] ∧
      Catalog.shapes.GroupedByDepth [ClassId.root, ⟨2⟩, ⟨1⟩, ⟨3⟩, ⟨4⟩] ∧
      ∀ target assembly, generateModule Catalog.shapes target = .ok assembly ↔
        generateModule Catalog.reversedShapes target = .ok assembly := by
  have same : Catalog.shapes.SameEntries Catalog.reversedShapes :=
    ⟨(List.reverse_perm _).symm, (List.reverse_perm _).symm, (List.reverse_perm _).symm⟩
  obtain ⟨sorting, order, generating⟩ := sortClasses_generateModule_of_sameEntries same
  exact ⟨same, (sorting _).mp Catalog.shapes_sortClasses, (order _ Catalog.shapes_sortClasses).2,
    generating⟩

end TypeRecords
