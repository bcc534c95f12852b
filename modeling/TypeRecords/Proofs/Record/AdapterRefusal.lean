import TypeRecords.Proofs.Record.AdapterRecord
import TypeRecords.Proofs.Record.Offence

/-!
What is left where an adapter is refused.

Owns the one way in which a refused adapter leaves something behind. All other questions are asked
before anything is placed, and only the virtual table of the root class after the arrays are. It
asks for less than the method table of the root class does, so it is refused only for an abstract
root class, which has no method table to be refused first.
-/

namespace TypeRecords

namespace Catalog

open Outcome

variable {catalog : Catalog} {sorted : List ClassId} {id interface : ClassId}
  {overrides : List Override} {slot : DispatchEntry} {slots : List DispatchEntry}

/-! ## Virtual tables that are refused -/

/-- Whether a virtual table has nothing to store in a slot: its method is concrete, and it has no
function. -/
def LacksSlotFunction (catalog : Catalog) (slot : DispatchEntry) : Prop :=
  ∃ method, catalog.method? slot.implementation = some method ∧
    method.implementation = .concrete ∧ method.function = none

theorem not_lacksSlotFunction {address : Option FunctionId}
    (stored : catalog.slotEntryPoint slot.implementation = .ok address) :
    ¬ catalog.LacksSlotFunction slot := by
  rintro ⟨method, found, isConcrete, absent⟩
  rw [slotEntryPoint_eq found, if_pos isConcrete, map_requiredFunction_eq_ok] at stored
  exact stored.2 (stored.1.trans absent)

theorem lacksSlotFunction_of_slotEntryPoint {method : MethodDefinition}
    (found : catalog.method? slot.implementation = some method) {failure : Failure}
    (failed : catalog.slotEntryPoint slot.implementation = .error failure) :
    catalog.LacksSlotFunction slot := by
  rw [slotEntryPoint_eq found] at failed
  split_ifs at failed with isConcrete
  exact ⟨method, found, isConcrete, (map_requiredFunction_eq_error.mp failed).1⟩

/-- A virtual table of declared methods is refused exactly for the first slot without its
function. -/
theorem virtualTable_eq_error_iff (opened : catalog.virtualSlots id = .ok slots)
    (declared : catalog.AllDeclared slots) {failure : Failure} :
    catalog.virtualTable id = .error failure ↔
      ∃ slot, IsFirst catalog.LacksSlotFunction slots slot ∧
        failure = .reported (.missingEntryPoint (catalog.describeMethod slot.implementation)) := by
  have onlyFirst : ∀ failure, catalog.virtualTable id = .error failure →
      ∃ slot, IsFirst catalog.LacksSlotFunction slots slot ∧
        failure = .reported (.missingEntryPoint (catalog.describeMethod slot.implementation)) := by
    intro failure refused
    rcases bind_eq_error.mp refused with asked | ⟨known, asked, failed⟩
    · rw [opened] at asked
      cases asked
    cases opened.symm.trans (Generator.lift_eq_ok.mp asked)
    obtain ⟨earlier, slot, later, rfl, own, answers⟩ := exists_first_of_mapM_eq_error failed
    obtain ⟨method, found⟩ := declared slot (by simp)
    rcases bind_eq_error.mp own with own | ⟨_, _, built⟩
    · refine ⟨slot, .of_append (fun passed member => ?_)
        (lacksSlotFunction_of_slotEntryPoint found own),
        missingEntryPoint_of_slotEntryPoint found own⟩
      obtain ⟨answer, answered⟩ := answers passed member
      obtain ⟨address, stored, _⟩ := bind_eq_ok.mp answered
      exact not_lacksSlotFunction stored
    · cases built
  refine ⟨onlyFirst failure, ?_⟩
  rintro ⟨slot, first, rfl⟩
  cases answered : catalog.virtualTable id with
  | error other =>
    obtain ⟨again, isFirst, rfl⟩ := onlyFirst other answered
    rw [first.unique isFirst]
  | ok table =>
    obtain ⟨known, asked, pairs⟩ := Generator.virtualTable_eq_ok.mp answered
    cases opened.symm.trans asked
    obtain ⟨_, _, _, _, stored⟩ := exists_item_of_mem pairs.flip first.mem
    exact absurd first.holds_item (not_lacksSlotFunction stored)

/-! ## Adapters that are refused late -/

/-- Whether an adapter, whose methods are there, is refused by the virtual table of an abstract root
class: this is the first of its slots without its function. -/
structure RefusedLate (catalog : Catalog) (interface : ClassId) (overrides : List Override)
    (slot : DispatchEntry) : Prop where
  tabled : ∃ definition methods, catalog.definition? interface = some definition ∧
    definition.isInterface = true ∧
    catalog.adapterMethods interface definition.name overrides = .ok methods
  isAbstract : ∃ root, catalog.definition? ClassId.root = some root ∧ root.isAbstract = true
  first : ∃ slots, catalog.virtualSlots ClassId.root = .ok slots ∧
    IsFirst catalog.LacksSlotFunction slots slot

theorem RefusedLate.virtualTable_eq (graph : catalog.SoundGraph) (order : catalog.ClassOrder sorted)
    (refused : catalog.RefusedLate interface overrides slot) :
    catalog.virtualTable ClassId.root =
      .error (.reported (.missingEntryPoint (catalog.describeMethod slot.implementation))) := by
  obtain ⟨slots, opened, first⟩ := refused.first
  have declared := allDeclared_of_virtualSlots graph order opened
  exact (virtualTable_eq_error_iff opened declared).mpr ⟨slot, first, rfl⟩

/-- Where only the virtual table is refused, the root class is abstract. -/
theorem exists_refusedLate (graph : catalog.SoundGraph) (order : catalog.ClassOrder sorted)
    {definition : ClassDefinition} (defined : catalog.definition? interface = some definition)
    (isInterface : definition.isInterface = true) {methods : List MethodRecord}
    (tabled : catalog.adapterMethods interface definition.name overrides = .ok methods)
    {failure : Failure} (failed : catalog.virtualTable ClassId.root = .error failure) :
    ∃ slot, catalog.RefusedLate interface overrides slot := by
  obtain ⟨root, rootDefined, _⟩ := graph.root
  obtain ⟨rootTable, rootTabled, _⟩ := bind_eq_ok.mp tabled
  obtain ⟨slots, opened⟩ := exists_virtualSlots graph order ⟨root, rootDefined⟩
  obtain ⟨slot, first, _⟩ := (virtualTable_eq_error_iff opened
    (allDeclared_of_virtualSlots graph order opened)).mp failed
  refine ⟨slot, ⟨definition, methods, defined, isInterface, tabled⟩, ⟨root, rootDefined, ?_⟩,
    ⟨slots, opened, first⟩⟩
  cases isAbstract : root.isAbstract with
  | true => rfl
  | false =>
    obtain ⟨table, answered⟩ :=
      exists_virtualTable_of_methodTable graph order rootDefined isAbstract rootTabled
    rw [failed] at answered
    cases answered

/-- An abstract root class with a concrete method that has no function, and an interface. -/
def unreachableRoot : Catalog where
  classes := .ofList [
    (ClassId.root, .defined {
      name := rootName
      kind := .proper
      modality := .abstract
      scope := .topLevel
      superclass := none
      interfaces := []
      fields := []
      methods := [⟨"toString()", .concrete, none, true⟩]
      exportSymbol := none }),
    (⟨1⟩, .defined {
      name := ⟨["demo", "Callback"]⟩
      kind := .interface
      modality := .abstract
      scope := .topLevel
      superclass := none
      interfaces := []
      fields := []
      methods := []
      exportSymbol := none })]
  functions := .empty
  valueBoxes := .empty

theorem unreachableRoot_sortClasses :
    unreachableRoot.sortClasses = .ok [ClassId.root, ⟨1⟩] := by
  decide +kernel

/-- The method table of the adapter is empty, and its virtual table is not. -/
theorem unreachableRoot_refusedLate :
    unreachableRoot.RefusedLate ⟨1⟩ [] ⟨"toString()", ⟨ClassId.root, 0⟩⟩ where
  tabled := ⟨_, [], rfl, rfl, by decide +kernel⟩
  isAbstract := ⟨_, rfl, rfl⟩
  first := ⟨_, rfl, .here ⟨_, rfl, rfl, rfl⟩⟩

end Catalog

namespace Generator

open Catalog

variable {generator : Generator} {interface : ClassId} {overrides : List Override}
  {before : Assembly}

/-! ## What is left -/

/-- The array of the interface is new. -/
theorem AdapterPrepared.segment_ne {definition : ClassDefinition} {methods : List MethodRecord}
    {parts : AdapterParts} {prepared : Segment}
    (prepares : generator.AdapterPrepared interface overrides definition methods parts prepared
      before) : prepared ≠ before.segment := by
  obtain ⟨_, _, placed, _⟩ := prepares.partsPlaced
  obtain ⟨_, isNext, _⟩ := Segment.placeArray_eq_ok.mp placed
  obtain ⟨_, found⟩ := prepares.held.interfaces
  rintro rfl
  rw [← isNext, Segment.get?_nextId] at found
  cases found

/-- An adapter that is refused late has its parts placed. -/
theorem exists_left_of_refusedLate {sorted : List ClassId} {slot : DispatchEntry}
    (graph : generator.catalog.SoundGraph) (order : generator.catalog.ClassOrder sorted)
    (declared : ∀ id, generator.catalog.IsDefined id → before.registry.Has id)
    (refused : generator.catalog.RefusedLate interface overrides slot) :
    ∃ definition methods parts left,
      generator.AdapterPrepared interface overrides definition methods parts left before ∧
      generator.generateAdapter interface overrides before =
        .error (.reported (.missingEntryPoint
          (generator.catalog.describeMethod slot.implementation)))
          { before with segment := left } := by
  obtain ⟨definition, methods, defined, isInterface, tabled⟩ := refused.tabled
  obtain ⟨root, rootDefined, _⟩ := refused.isAbstract
  obtain ⟨parts, left, prepares, stops, _⟩ := exists_adapterPrepared defined isInterface tabled
    (declared interface ⟨definition, defined⟩) (declared ClassId.root ⟨root, rootDefined⟩)
  exact ⟨definition, methods, parts, left, prepares, stops _ (refused.virtualTable_eq graph order)⟩

/-- A refused adapter leaves the registry as it was, and the segment too unless it is refused late.
Then the error names the slot, and the parts of the adapter are left. -/
theorem adapterRefused_leaves_parts {sorted : List ClassId}
    (accepted : generator.catalog.sortClasses = .ok sorted)
    (declared : ∀ id, generator.catalog.IsDefined id → before.registry.Has id)
    (interface : ClassId) (overrides : List Override) :
    (∀ error after,
      generator.generateAdapter interface overrides before = .error (.reported error) after →
        after.registry = before.registry ∧
        (after.segment = before.segment ↔
          ¬ ∃ slot, generator.catalog.RefusedLate interface overrides slot)) ∧
    ∀ slot, generator.catalog.RefusedLate interface overrides slot →
      ∃ definition methods parts left,
        generator.AdapterPrepared interface overrides definition methods parts left before ∧
        generator.generateAdapter interface overrides before =
          .error (.reported (.missingEntryPoint
            (generator.catalog.describeMethod slot.implementation)))
            { before with segment := left } := by
  have graph := soundGraph_of_sortClasses accepted
  have order := classOrder_of_sortClasses accepted
  constructor
  · intro error after failed
    have ending := generator.adapterEnding interface overrides before
    rw [failed] at ending
    cases ending with
    | stopped stop =>
      refine ⟨rfl, ?_⟩
      cases stop with
      | notInterface defined isProper =>
        refine iff_of_true rfl ?_
        rintro ⟨slot, refused⟩
        obtain ⟨definition, methods, definedAgain, isInterface, _⟩ := refused.tabled
        cases defined.symm.trans definedAgain
        rw [isProper] at isInterface
        cases isInterface
      | methods defined asked =>
        refine iff_of_true rfl ?_
        rintro ⟨slot, refused⟩
        obtain ⟨definition, methods, definedAgain, _, tabled⟩ := refused.tabled
        cases defined.symm.trans definedAgain
        rw [asked] at tabled
        cases tabled
      | virtualTable prepares asked =>
        refine iff_of_false prepares.segment_ne (not_not_intro ?_)
        exact exists_refusedLate graph order prepares.defined prepares.isInterface prepares.tabled
          asked
  · intro slot refused
    exact exists_left_of_refusedLate graph order declared refused

def unreachableGenerator : Generator := ⟨unreachableRoot, .iphone⟩

theorem exists_declared_unreachableRoot :
    ∃ before, unreachableGenerator.declareAll [ClassId.root, ⟨1⟩] .empty = .ok () before ∧
      ∀ id, unreachableGenerator.catalog.IsDefined id → before.registry.Has id := by
  have succeeds : (unreachableGenerator.declareAll [ClassId.root, ⟨1⟩]).succeeds .empty = true := by
    decide +kernel
  obtain ⟨_, before, ran⟩ := Build.exists_eq_ok succeeds
  have order := classOrder_of_sortClasses unreachableRoot_sortClasses
  refine ⟨before, ran, fun id isDefined => ?_⟩
  exact ((allDeclared_of_declareAll ran).entered id).mpr ((order.complete id).mpr isDefined)

theorem unreachableRoot_leavesParts :
    ∃ before definition methods parts left,
      unreachableGenerator.declareAll [ClassId.root, ⟨1⟩] .empty = .ok () before ∧
      unreachableGenerator.AdapterPrepared ⟨1⟩ [] definition methods parts left before ∧
      unreachableGenerator.generateAdapter ⟨1⟩ [] before =
        .error (.reported (.missingEntryPoint (unreachableRoot.describeMethod ⟨ClassId.root, 0⟩)))
          { before with segment := left } := by
  obtain ⟨before, ran, declared⟩ := exists_declared_unreachableRoot
  obtain ⟨_, late⟩ := adapterRefused_leaves_parts unreachableRoot_sortClasses declared ⟨1⟩ []
  obtain ⟨definition, methods, parts, left, prepares, failed⟩ :=
    late _ unreachableRoot_refusedLate
  exact ⟨before, definition, methods, parts, left, ran, prepares, failed⟩

/-- A refused adapter can change the segment. -/
theorem not_adapterRefused_keeps_segment :
    ¬ ∀ (catalog : Catalog) (sorted : List ClassId) (target : Target) (before after : Assembly)
      (interface : ClassId) (overrides : List Override) (error : RecordError),
      catalog.sortClasses = .ok sorted →
        (∀ id, catalog.IsDefined id → before.registry.Has id) →
          (Generator.mk catalog target).generateAdapter interface overrides before =
              .error (.reported error) after →
            after.segment = before.segment ∧ after.registry = before.registry := by
  intro keeps
  obtain ⟨before, _, declared⟩ := exists_declared_unreachableRoot
  have graph := soundGraph_of_sortClasses unreachableRoot_sortClasses
  have order := classOrder_of_sortClasses unreachableRoot_sortClasses
  obtain ⟨_, _, _, left, prepares, failed⟩ :=
    exists_left_of_refusedLate graph order declared unreachableRoot_refusedLate
  have same := keeps _ _ _ before _ _ _ _ unreachableRoot_sortClasses declared failed
  exact prepares.segment_ne same.1

end Generator

end TypeRecords
