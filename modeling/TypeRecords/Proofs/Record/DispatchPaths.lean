import TypeRecords.Proofs.Class.Members
import TypeRecords.Proofs.Record.Generation

/-!
The two ways to the method that answers a call.

A virtual call takes the function at a slot of the virtual table; a call through an interface takes
that of a record of the method table. Owns the agreement of the two tables of a class: what each
stores for a member, that both draw from the same members, and that all of these are declared. The
tables differ for external members alone, which have no slot that can be called.
-/

namespace TypeRecords

namespace Catalog

open Outcome FirstOccurrence

variable {catalog : Catalog} {sorted : List ClassId} {id : ClassId} {chain : List ClassId}

/-! ## Members are declared -/

/-- Whether all members of a table are implemented by methods that are declared. -/
def AllDeclared (catalog : Catalog) (entries : List DispatchEntry) : Prop :=
  ∀ entry ∈ entries, ∃ method, catalog.method? entry.implementation = some method

theorem exists_method?_of_ownMethod? {name : String} {method : MethodRef}
    (own : catalog.ownMethod? name id = some method) :
    ∃ definition, catalog.method? method = some definition := by
  rw [ownMethod?_eq, Option.map_eq_some_iff] at own
  obtain ⟨declaration, located, rfl⟩ := own
  exact ⟨_, method?_of_mem_declarations (List.mem_of_find?_eq_some located)⟩

theorem exists_method?_of_findSome? {classes : List ClassId} {name : String} {method : MethodRef}
    (first : classes.findSome? (catalog.ownMethod? name) = some method) :
    ∃ definition, catalog.method? method = some definition := by
  obtain ⟨owner, _, own⟩ := List.exists_of_findSome?_eq_some first
  exact exists_method?_of_ownMethod? own

theorem allDeclared_slotsAlong (chain : List ClassId) :
    catalog.AllDeclared (catalog.slotsAlong chain) := by
  intro slot member
  obtain ⟨declaration, last, place⟩ :=
    Option.map_eq_some_iff.mp (implementation_of_mem_slotsOf member)
  have listed := List.mem_reverse.mp (List.mem_of_find?_eq_some last)
  obtain ⟨owner, _, declared⟩ := List.mem_flatMap.mp listed
  rw [← place]
  exact ⟨_, method?_of_mem_declarations declared⟩

theorem allDeclared_memberTable (graph : catalog.SoundGraph) (order : catalog.ClassOrder sorted)
    (ancestry : catalog.Ancestry id chain) : catalog.AllDeclared (catalog.memberTable chain) := by
  intro entry member
  have table := memberTable_of_ancestry graph order ancestry
  by_cases named : entry.name ∈ (catalog.slotsAlong chain).map DispatchEntry.name
  · exact allDeclared_slotsAlong chain entry (table.mem_slots member named)
  · obtain ⟨method, offered, implementation⟩ :=
      exists_ownMethod?_of_mem_memberTable graph order member named
    rw [implementation]
    cases own : catalog.methodsAlong chain entry.name with
    | none => exact exists_method?_of_findSome? offered
    | some classMethod => exact exists_method?_of_findSome? own

/-! ## What the tables store for a method -/

section EntryPoints

variable {method : MethodRef} {definition : MethodDefinition}

theorem map_requiredFunction_eq_ok {address : Option FunctionId} :
    (catalog.requiredFunction method definition).map some = .ok address ↔
      address = definition.function ∧ address ≠ none := by
  rw [requiredFunction]
  cases definition.function with
  | none => simp [Except.map]
  | some function =>
    have present : address = some function → address ≠ none := by simp +contextual
    simpa [Except.map, eq_comm] using present

theorem map_requiredFunction_eq_error {failure : Failure} :
    (catalog.requiredFunction method definition).map some = .error failure ↔
      definition.function = none ∧
        failure = .reported (.missingEntryPoint (catalog.describeMethod method)) := by
  rw [requiredFunction]
  cases definition.function <;> simp [Except.map, eq_comm]

theorem declaredMethod_eq_ok :
    catalog.declaredMethod method = .ok definition ↔ catalog.method? method = some definition := by
  rw [declaredMethod]
  cases catalog.method? method <;> simp

/-- The method table stores the function of every method that is not abstract. -/
theorem entryPoint_eq (found : catalog.method? method = some definition) :
    catalog.entryPoint method =
      if definition.implementation = .abstract then .ok none
      else (catalog.requiredFunction method definition).map some := by
  rw [entryPoint, declaredMethod_eq_ok.mpr found, ok_bind]
  cases definition.implementation <;> rfl

/-- The virtual table stores the functions of concrete methods only. -/
theorem slotEntryPoint_eq (found : catalog.method? method = some definition) :
    catalog.slotEntryPoint method =
      if definition.implementation = .concrete then
        (catalog.requiredFunction method definition).map some
      else .ok none := by
  rw [slotEntryPoint, declaredMethod_eq_ok.mpr found, ok_bind]
  cases definition.implementation <;> rfl

theorem entryPoint_eq_ok (found : catalog.method? method = some definition)
    {address : Option FunctionId} :
    catalog.entryPoint method = .ok address ↔
      (definition.implementation = .abstract ∧ address = none) ∨
      (definition.implementation ≠ .abstract ∧ address = definition.function ∧ address ≠ none) := by
  rw [entryPoint_eq found]
  by_cases isAbstract : definition.implementation = .abstract
  · simp [isAbstract, eq_comm]
  · rw [if_neg isAbstract, map_requiredFunction_eq_ok]
    simp [isAbstract]

/-- What the method table can store, the virtual table can too. It leaves external methods out. -/
theorem slotEntryPoint_of_entryPoint (found : catalog.method? method = some definition)
    {address : Option FunctionId} (stored : catalog.entryPoint method = .ok address) :
    catalog.slotEntryPoint method =
      .ok (if definition.implementation = .external then none else address) := by
  rw [entryPoint_eq found] at stored
  rw [slotEntryPoint_eq found]
  cases kind : definition.implementation with
  | abstract => simpa [kind] using stored
  | concrete => simpa [kind] using stored
  | external => simp

/-- A declared method is kept out of a table only by its missing function. -/
theorem missingEntryPoint_of_entryPoint (found : catalog.method? method = some definition)
    {failure : Failure} (failed : catalog.entryPoint method = .error failure) :
    failure = .reported (.missingEntryPoint (catalog.describeMethod method)) := by
  rw [entryPoint_eq found] at failed
  split_ifs at failed
  exact (map_requiredFunction_eq_error.mp failed).2

theorem missingEntryPoint_of_slotEntryPoint (found : catalog.method? method = some definition)
    {failure : Failure} (failed : catalog.slotEntryPoint method = .error failure) :
    failure = .reported (.missingEntryPoint (catalog.describeMethod method)) := by
  rw [slotEntryPoint_eq found] at failed
  split_ifs at failed
  exact (map_requiredFunction_eq_error.mp failed).2

end EntryPoints

/-! ## Records of members -/

/-- Whether a record is that of a member. -/
structure RecordOf (catalog : Catalog) (entry : DispatchEntry) (record : MethodRecord) : Prop where
  hash : record.hash = NameHash.of entry.name
  name : record.name = entry.name
  implementation : record.implementation = entry.implementation
  entryPoint : catalog.entryPoint entry.implementation = .ok record.entryPoint

/-- A record is null exactly where its method is abstract. -/
theorem RecordOf.entryPoint_eq_none_iff {entry : DispatchEntry} {record : MethodRecord}
    (isRecord : catalog.RecordOf entry record) {method : MethodDefinition}
    (found : catalog.method? entry.implementation = some method) :
    record.entryPoint = none ↔ method.implementation = .abstract := by
  rcases (entryPoint_eq_ok found).mp isRecord.entryPoint with
    ⟨isAbstract, absent⟩ | ⟨notAbstract, _, present⟩
  · simp [isAbstract, absent]
  · simp [notAbstract, present]

theorem methodRecord_eq_ok {entry : DispatchEntry} {record : MethodRecord} :
    catalog.methodRecord entry = .ok record ↔ catalog.RecordOf entry record := by
  rw [methodRecord, bind_eq_ok]
  constructor
  · intro answered
    obtain ⟨address, stored, built⟩ := answered
    rw [← pure_eq_ok.mp built]
    exact ⟨rfl, rfl, rfl, stored⟩
  · intro isRecord
    refine ⟨record.entryPoint, isRecord.entryPoint, ?_⟩
    rw [← isRecord.hash, ← isRecord.name, ← isRecord.implementation]
    rfl

theorem sortDistinct_perm {className : QualifiedName} {records sortedRecords : List MethodRecord}
    (distinct : catalog.sortDistinct className records = .ok sortedRecords) :
    sortedRecords.Perm records := by
  rw [sortDistinct] at distinct
  split at distinct
  · rw [← Except.ok.inj distinct]
    exact List.mergeSort_perm _ _
  · cases distinct

/-- Records in order are kept as they are. -/
theorem sortDistinct_eq_self {className : QualifiedName} {records : List MethodRecord}
    (inOrder : records.Pairwise fun left right => left.hash.atMost right.hash = true)
    (noClash : MethodRecord.firstClash? records = none) :
    catalog.sortDistinct className records = .ok records := by
  rw [sortDistinct, List.mergeSort_of_pairwise inOrder, noClash]

theorem methodTable_eq {definition : ClassDefinition}
    (defined : catalog.definition? id = some definition)
    (isConcrete : definition.isAbstract = false) {entries : List DispatchEntry}
    (answered : catalog.members id = .ok entries) :
    catalog.methodTable id =
      entries.mapM catalog.methodRecord >>= catalog.sortDistinct definition.name := by
  rw [methodTable, definition_eq_ok.mpr defined, answered]
  show (if definition.isAbstract = true then _ else _) = _
  rw [isConcrete]
  rfl

/-- The method table of a class with instances has the records of its members, sorted. -/
theorem methodTable_eq_ok {definition : ClassDefinition}
    (defined : catalog.definition? id = some definition)
    (isConcrete : definition.isAbstract = false) {entries : List DispatchEntry}
    (answered : catalog.members id = .ok entries) {records : List MethodRecord} :
    catalog.methodTable id = .ok records ↔
      ∃ unsorted, List.Forall₂ catalog.RecordOf entries unsorted ∧
        catalog.sortDistinct definition.name unsorted = .ok records := by
  have sameRelation : (fun entry record => catalog.methodRecord entry = .ok record) =
      catalog.RecordOf := by
    funext entry record
    exact propext methodRecord_eq_ok
  rw [methodTable_eq defined isConcrete answered, bind_eq_ok]
  simp only [mapM_eq_ok, sameRelation]

/-- Where names are distinct, a name has one record. -/
theorem filter_name_eq_singleton {records : List MethodRecord}
    (distinct : (records.map MethodRecord.name).Nodup) {record : MethodRecord}
    (member : record ∈ records) :
    (records.filter fun other => other.name = record.name) = [record] := by
  induction records with
  | nil => cases member
  | cons first rest inductionHypothesis =>
    rw [List.map_cons, List.nodup_cons] at distinct
    by_cases same : first.name = record.name
    · have fromFirst : record = first := by
        rcases List.mem_cons.mp member with isFirst | later
        · exact isFirst
        · exact absurd (same ▸ List.mem_map_of_mem later) distinct.1
      have noOther : (rest.filter fun other => other.name = record.name) = [] := by
        rw [List.filter_eq_nil_iff]
        intro other otherMember sameName
        exact distinct.1 (same.trans (of_decide_eq_true sameName).symm ▸
          List.mem_map_of_mem otherMember)
      rw [List.filter_cons_of_pos (by simpa using same), noOther, fromFirst]
    · have later : record ∈ rest := by
        refine (List.mem_cons.mp member).resolve_left fun isFirst => same ?_
        rw [isFirst]
      rw [List.filter_cons_of_neg (by simpa using same)]
      exact inductionHypothesis distinct.2 later

theorem names_eq_of_recordOf {entries : List DispatchEntry} {records : List MethodRecord}
    (pairs : List.Forall₂ catalog.RecordOf entries records) :
    records.map MethodRecord.name = entries.map DispatchEntry.name :=
  (map_eq_map_of_forall₂ pairs fun _ _ isRecord => isRecord.name.symm).symm

theorem exists_recordOf_of_mem {entries : List DispatchEntry} {records : List MethodRecord}
    (pairs : List.Forall₂ catalog.RecordOf entries records) {entry : DispatchEntry}
    (member : entry ∈ entries) : ∃ record ∈ records, catalog.RecordOf entry record :=
  exists_item_of_mem pairs.flip member

/-! ## Agreement of the tables -/

/-- Whether a record is the only one for a slot and leads to the same function, unless the method
is external. -/
structure SlotRecord (catalog : Catalog) (records : List MethodRecord) (slot : VirtualSlot)
    (record : MethodRecord) (method : MethodDefinition) : Prop where
  only : (records.filter fun other => other.name = slot.name) = [record]
  implementation : record.implementation = slot.implementation
  declared : catalog.method? slot.implementation = some method
  entryPoint : method.implementation ≠ .external → record.entryPoint = slot.entryPoint
  external : method.implementation = .external →
    slot.entryPoint = none ∧ record.entryPoint = method.function ∧ method.function ≠ none

/-- Whether the virtual table and the method table of a class lead to the same methods. -/
structure PathsAgree (catalog : Catalog) (records : List MethodRecord) (slots : List VirtualSlot) :
    Prop where
  slotRecord : ∀ slot ∈ slots, ∃ record method, catalog.SlotRecord records slot record method
  entryPoint_eq_none_iff : ∀ record ∈ records, ∃ method,
    catalog.method? record.implementation = some method ∧
      (record.entryPoint = none ↔ method.implementation = .abstract)

section Agreement

variable {slots entries : List DispatchEntry} {records : List MethodRecord}

/-- A virtual table can be made of slots that the method table has records for. -/
theorem exists_virtualTable (answered : catalog.virtualSlots id = .ok slots)
    (declared : catalog.AllDeclared entries)
    (slotsFirst : slots <+: entries) (pairs : List.Forall₂ catalog.RecordOf entries records) :
    ∃ table, catalog.virtualTable id = .ok table := by
  have each : ∀ slot ∈ slots, ∃ made, (do
      let entryPoint ← catalog.slotEntryPoint slot.implementation
      return ⟨slot.name, slot.implementation, entryPoint⟩ : Except Failure VirtualSlot) =
        .ok made := by
    intro slot member
    obtain ⟨method, found⟩ := declared slot (slotsFirst.subset member)
    obtain ⟨record, _, isRecord⟩ := exists_recordOf_of_mem pairs (slotsFirst.subset member)
    rw [slotEntryPoint_of_entryPoint found isRecord.entryPoint]
    exact ⟨_, rfl⟩
  rw [virtualTable, answered]
  exact exists_mapM_eq_ok each

theorem slotRecord_of_recordOf {slot : VirtualSlot} {entry : DispatchEntry} {record : MethodRecord}
    {method : MethodDefinition} (isRecord : catalog.RecordOf entry record)
    (sameName : slot.name = entry.name) (sameMethod : slot.implementation = entry.implementation)
    (stored : catalog.slotEntryPoint entry.implementation = .ok slot.entryPoint)
    (found : catalog.method? entry.implementation = some method)
    (distinct : (records.map MethodRecord.name).Nodup) (member : record ∈ records) :
    catalog.SlotRecord records slot record method := by
  rw [slotEntryPoint_of_entryPoint found isRecord.entryPoint, Except.ok.injEq] at stored
  refine ⟨?_, ?_, ?_, ?_, ?_⟩
  · rw [sameName, ← isRecord.name]
    exact filter_name_eq_singleton distinct member
  · rw [isRecord.implementation, sameMethod]
  · rw [sameMethod, found]
  · intro notExternal
    rw [← stored, if_neg notExternal]
  · intro isExternal
    rw [if_pos isExternal] at stored
    have notAbstract : method.implementation ≠ .abstract := by simp [isExternal]
    rcases (entryPoint_eq_ok found).mp isRecord.entryPoint with
      ⟨isAbstract, _⟩ | ⟨_, sameFunction, present⟩
    · exact absurd isAbstract notAbstract
    · exact ⟨stored.symm, sameFunction, sameFunction ▸ present⟩

theorem pathsAgree_of_recordOf {unsorted : List MethodRecord} {table : List VirtualSlot}
    (declared : catalog.AllDeclared entries)
    (distinct : (entries.map DispatchEntry.name).Nodup)
    (answered : catalog.virtualSlots id = .ok slots)
    (slotsFirst : slots <+: entries) (pairs : List.Forall₂ catalog.RecordOf entries unsorted)
    (perm : records.Perm unsorted) (dispatched : catalog.virtualTable id = .ok table) :
    catalog.PathsAgree records table := by
  constructor
  · intro slot member
    obtain ⟨found, sameSlots, slotPairs⟩ := Generator.virtualTable_eq_ok.mp dispatched
    rw [answered, Except.ok.injEq] at sameSlots
    obtain ⟨entry, listed, sameName, sameMethod, stored⟩ := exists_item_of_mem slotPairs member
    have entryMember : entry ∈ entries := slotsFirst.subset (sameSlots ▸ listed)
    obtain ⟨method, isMethod⟩ := declared entry entryMember
    obtain ⟨record, recordMember, isRecord⟩ := exists_recordOf_of_mem pairs entryMember
    -- Sorting only permutes records, so the one found stays the only one of its name.
    have recordsDistinct : (records.map MethodRecord.name).Nodup := by
      rw [(perm.map MethodRecord.name).nodup_iff, names_eq_of_recordOf pairs]
      exact distinct
    exact ⟨record, method, slotRecord_of_recordOf isRecord sameName sameMethod stored isMethod
      recordsDistinct (perm.mem_iff.mpr recordMember)⟩
  · intro record member
    obtain ⟨entry, entryMember, isRecord⟩ := exists_item_of_mem pairs (perm.mem_iff.mp member)
    obtain ⟨method, isMethod⟩ := declared entry entryMember
    rw [isRecord.implementation]
    exact ⟨method, isMethod, isRecord.entryPoint_eq_none_iff isMethod⟩

end Agreement

/-! ## No method is missed -/

theorem lift_ne_reported {α : Type} {result : Except Fault α} {error : RecordError} :
    (liftM result : Except Failure α) ≠ .error (.reported error) := by
  intro failed
  cases result <;> cases failed

theorem isInterface_eq_false_of_isAbstract_eq_false {definition : ClassDefinition}
    (isConcrete : definition.isAbstract = false) : definition.isInterface = false :=
  (Bool.or_eq_false_iff.mp isConcrete).1

theorem allDeclared_of_members (graph : catalog.SoundGraph) (order : catalog.ClassOrder sorted)
    {definition : ClassDefinition} (defined : catalog.definition? id = some definition)
    (proper : definition.isInterface = false) {entries : List DispatchEntry}
    (answered : catalog.members id = .ok entries) : catalog.AllDeclared entries := by
  obtain ⟨chain, ancestry⟩ := exists_ancestry graph order ⟨definition, defined⟩
  have isProper := isProper_of_isInterface_eq_false defined proper
  rw [members_eq graph order ancestry isProper, Except.ok.injEq] at answered
  exact answered ▸ allDeclared_memberTable graph order ancestry

theorem allDeclared_of_virtualSlots (graph : catalog.SoundGraph) (order : catalog.ClassOrder sorted)
    {slots : List DispatchEntry} (answered : catalog.virtualSlots id = .ok slots) :
    catalog.AllDeclared slots := by
  obtain ⟨definition, asked, _⟩ := bind_eq_ok.mp answered
  have defined := definition_eq_ok.mp asked
  cases isInterface : definition.isInterface with
  | true =>
    have noSlots : catalog.virtualSlots id = .ok [] :=
      virtualSlotsWithin_eq_nil defined isInterface (by simp [walkBound])
    rw [noSlots, Except.ok.injEq] at answered
    simp [← answered, AllDeclared]
  | false =>
    obtain ⟨chain, ancestry⟩ := exists_ancestry graph order ⟨definition, defined⟩
    have isProper := isProper_of_isInterface_eq_false defined isInterface
    rw [virtualSlots_eq graph ancestry isProper, Except.ok.injEq] at answered
    exact answered ▸ allDeclared_slotsAlong chain

theorem methodTable_ne_unknownMethod (graph : catalog.SoundGraph)
    (order : catalog.ClassOrder sorted) (text : String) :
    catalog.methodTable id ≠ .error (.reported (.unknownMethod text)) := by
  intro failed
  rcases bind_eq_error.mp failed with asked | ⟨definition, asked, failed⟩
  · exact lift_ne_reported asked
  have defined := definition_eq_ok.mp (Generator.lift_eq_ok.mp asked)
  split_ifs at failed with isAbstract
  · cases failed
  have proper := isInterface_eq_false_of_isAbstract_eq_false (Bool.eq_false_iff.mpr isAbstract)
  rcases bind_eq_error.mp failed with asked | ⟨entries, asked, failed⟩
  · exact lift_ne_reported asked
  have declared := allDeclared_of_members graph order defined proper (Generator.lift_eq_ok.mp asked)
  rcases bind_eq_error.mp failed with refused | ⟨records, _, refused⟩
  · obtain ⟨entry, member, refused⟩ := exists_item_of_mapM_eq_error refused
    obtain ⟨method, found⟩ := declared entry member
    rcases bind_eq_error.mp refused with refused | ⟨address, _, built⟩
    · cases missingEntryPoint_of_entryPoint found refused
    · cases built
  · rw [sortDistinct] at refused
    split at refused
    · cases refused
    · cases refused

theorem virtualTable_ne_unknownMethod (graph : catalog.SoundGraph)
    (order : catalog.ClassOrder sorted) (text : String) :
    catalog.virtualTable id ≠ .error (.reported (.unknownMethod text)) := by
  intro failed
  rcases bind_eq_error.mp failed with asked | ⟨slots, asked, failed⟩
  · exact lift_ne_reported asked
  have declared := allDeclared_of_virtualSlots graph order (Generator.lift_eq_ok.mp asked)
  obtain ⟨slot, member, refused⟩ := exists_item_of_mapM_eq_error failed
  obtain ⟨method, found⟩ := declared slot member
  rcases bind_eq_error.mp refused with refused | ⟨address, _, built⟩
  · cases missingEntryPoint_of_slotEntryPoint found refused
  · cases built

/-! ## Main result -/

/-- In an accepted graph, a class whose method table can be made has a virtual table that leads to
the same methods, and no table of any class misses a method. -/
theorem dispatchPaths_of_sortClasses {catalog : Catalog} {sorted : List ClassId}
    (accepted : catalog.sortClasses = .ok sorted) (id : ClassId) :
    (∀ definition records, catalog.definition? id = some definition →
      definition.isAbstract = false → catalog.methodTable id = .ok records →
        ∃ slots, catalog.virtualTable id = .ok slots ∧ catalog.PathsAgree records slots) ∧
    ∀ text, catalog.methodTable id ≠ .error (.reported (.unknownMethod text)) ∧
      catalog.virtualTable id ≠ .error (.reported (.unknownMethod text)) := by
  have graph := soundGraph_of_sortClasses accepted
  have order := classOrder_of_sortClasses accepted
  constructor
  · intro definition records defined isConcrete made
    have proper := isInterface_eq_false_of_isAbstract_eq_false isConcrete
    have isProper := isProper_of_isInterface_eq_false defined proper
    obtain ⟨chain, ancestry⟩ := exists_ancestry graph order ⟨definition, defined⟩
    have table := memberTable_of_ancestry graph order ancestry
    have members := members_eq graph order ancestry isProper
    have slots := virtualSlots_eq graph ancestry isProper
    have declared := allDeclared_of_members graph order defined proper members
    obtain ⟨unsorted, pairs, distinct⟩ := (methodTable_eq_ok defined isConcrete members).mp made
    obtain ⟨dispatched, answered⟩ := exists_virtualTable slots declared table.slotsFirst pairs
    exact ⟨dispatched, answered, pathsAgree_of_recordOf declared table.namesDistinct slots
      table.slotsFirst pairs (sortDistinct_perm distinct) answered⟩
  · intro text
    exact ⟨methodTable_ne_unknownMethod graph order text,
      virtualTable_ne_unknownMethod graph order text⟩

theorem shadowed_methodTable :
    shadowed.methodTable ⟨5⟩ = .ok [
      ⟨NameHash.of "toString()", "toString()", ⟨⟨5⟩, 0⟩, some ⟨5⟩⟩,
      ⟨NameHash.of "owner()", "owner()", ⟨⟨3⟩, 1⟩, some ⟨4⟩⟩,
      ⟨NameHash.of "label()", "label()", ⟨⟨3⟩, 0⟩, some ⟨3⟩⟩,
      ⟨NameHash.of "name()", "name()", ⟨⟨1⟩, 0⟩, none⟩] := by
  have members : shadowed.members ⟨5⟩ = .ok [⟨"toString()", ⟨⟨5⟩, 0⟩⟩, ⟨"owner()", ⟨⟨3⟩, 1⟩⟩,
      ⟨"label()", ⟨⟨3⟩, 0⟩⟩, ⟨"name()", ⟨⟨1⟩, 0⟩⟩] := rfl
  refine (methodTable_eq_ok rfl rfl members).mpr ⟨_, ?_, sortDistinct_eq_self ?_ ?_⟩
  · exact .cons ⟨rfl, rfl, rfl, rfl⟩ (.cons ⟨rfl, rfl, rfl, rfl⟩ (.cons ⟨rfl, rfl, rfl, rfl⟩
      (.cons ⟨rfl, rfl, rfl, rfl⟩ .nil)))
  · decide +kernel
  · decide +kernel

theorem shadowed_dispatchPaths :
    (∃ records slots, shadowed.methodTable ⟨5⟩ = .ok records ∧
      shadowed.virtualTable ⟨5⟩ = .ok slots ∧ shadowed.PathsAgree records slots) ∧
    ∀ text, shadowed.methodTable ⟨5⟩ ≠ .error (.reported (.unknownMethod text)) ∧
      shadowed.virtualTable ⟨5⟩ ≠ .error (.reported (.unknownMethod text)) := by
  obtain ⟨agree, neverMissed⟩ := dispatchPaths_of_sortClasses shadowed_sortClasses ⟨5⟩
  obtain ⟨slots, dispatched, paths⟩ := agree _ _ rfl rfl shadowed_methodTable
  exact ⟨⟨_, slots, shadowed_methodTable, dispatched, paths⟩, neverMissed⟩

end Catalog

end TypeRecords
