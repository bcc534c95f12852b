import Mathlib.Logic.ExistsUnique
import TypeRecords.Proofs.CSource.Translation
import TypeRecords.Proofs.Schedule

/-!
The struct types of a unit.

Owns which C type the unit of a segment gives each storage type in it, and the order in which the
structs are defined. What C type is given is read off the unit itself, from the types of the
variables down to their elements and members. That such types represent the storage types makes
them equal exactly where these are. That a struct mentions earlier structs only gives an order of
definition, so a unit always has a text.
-/

namespace TypeRecords

/-- Whether a storage type occurs in the type of a global, at any depth. -/
def Segment.HasType (segment : Segment) (type : DataType) : Prop :=
  ∃ global ∈ segment.globals, type.Occurs global.type

namespace CSource

/-- Whether a value of a C type contains the struct of that number, directly or in arrays. -/
inductive CType.Contains (number : Nat) : CType → Prop
  | struct : Contains number (.struct number)
  | array {element : CType} {size : Nat} (inside : Contains number element) :
      Contains number (.array element size)
  | const {type : CType} (inside : Contains number type) : Contains number (.const type)

theorem CType.containedStruct?_eq_some {type : CType} {number : Nat} :
    type.containedStruct? = some number ↔ type.Contains number := by
  constructor
  · intro contained
    induction type with
    | struct other =>
      cases contained
      exact .struct
    | array element size inductionHypothesis => exact .array (inductionHypothesis contained)
    | const type inductionHypothesis => exact .const (inductionHypothesis contained)
    | void | uint16 | int32 | int64 | pointer => cases contained
  · intro contained
    induction contained with
    | struct => rfl
    | array _ inductionHypothesis => exact inductionHypothesis
    | const _ inductionHypothesis => exact inductionHypothesis

theorem CType.Contains.mem_structs {type : CType} {number : Nat}
    (contained : type.Contains number) : number ∈ type.structs := by
  induction contained with
  | struct => exact List.mem_singleton_self number
  | array _ inductionHypothesis => exact inductionHypothesis
  | const _ inductionHypothesis => exact inductionHypothesis

namespace SourceUnit

variable {unit : SourceUnit} {asked : DataType → Prop}

/-! ## The order of definition -/

/-- The definition of the struct with a number. -/
def definitionOf (unit : SourceUnit) (number : Nat) : StructDefinition :=
  ⟨number, unit.structs.getD number [], none⟩

theorem structDefinitions_eq (unit : SourceUnit) :
    unit.structDefinitions = (List.range unit.structs.length).map unit.definitionOf := by
  apply List.ext_getElem
  · simp [structDefinitions]
  · intro number inside _
    have insideTable : number < unit.structs.length := by simpa [structDefinitions] using inside
    simp [structDefinitions, definitionOf, insideTable]

theorem map_item_structTasks (unit : SourceUnit) :
    unit.structTasks.map Task.item = List.range unit.structs.length := by
  rw [structTasks, List.map_map, List.range_eq_range', ← List.zipIdx_map_snd 0]
  rfl

theorem mem_structTasks {task : Task Nat} :
    task ∈ unit.structTasks ↔ ∃ members, unit.structs[task.item]? = some members ∧
      task.needs = members.filterMap CType.containedStruct? := by
  obtain ⟨item, needs⟩ := task
  simp only [structTasks, List.mem_map, Prod.exists, List.mem_zipIdx_iff_getElem?, Task.mk.injEq]
  constructor
  · rintro ⟨members, _, defined, rfl, rfl⟩
    exact ⟨members, defined, rfl⟩
  · rintro ⟨members, defined, rfl⟩
    exact ⟨members, item, defined, rfl, rfl⟩

/-- In a filled table structs contain earlier ones only. -/
theorem lt_of_contains (filled : unit.structs.Filled asked) {number need : Nat}
    {members : List CType} {member : CType} (defined : unit.structs[number]? = some members)
    (listed : member ∈ members) (contained : member.Contains need) : need < number := by
  obtain ⟨_, _, _, earlier⟩ := filled.exists_members defined
  exact earlier member listed need contained.mem_structs

/-- The structs of a filled table are scheduled completely, each behind those it contains. -/
theorem exists_order (filled : unit.structs.Filled asked) :
    ∃ order : List Nat, order.Perm (List.range unit.structs.length) ∧
      unit.orderedStructs = .ok (order.map unit.definitionOf) ∧
      ∀ number members, unit.structs[number]? = some members → ∀ member ∈ members, ∀ need,
        member.Contains need → order.idxOf need < order.idxOf number := by
  let atMost (left right : Nat) : Bool := decide (left ≤ right)
  have noneLeft : (Task.schedule atMost unit.structTasks).2 = [] := by
    apply Task.stuck_eq_nil_of_lt
    intro task listed need needed
    obtain ⟨members, defined, needs⟩ := mem_structTasks.mp listed
    rw [needs, List.mem_filterMap] at needed
    obtain ⟨member, memberListed, contained⟩ := needed
    exact lt_of_contains filled defined memberListed (CType.containedStruct?_eq_some.mp contained)
  have whole := Task.schedule_perm atMost unit.structTasks
  rw [noneLeft, List.map_nil, List.append_nil, map_item_structTasks] at whole
  refine ⟨_, whole, ?_, ?_⟩
  · have found : ∀ number ∈ (Task.schedule atMost unit.structTasks).1,
        unit.structDefinitions[number]? = some (unit.definitionOf number) := by
      intro number listed
      have inside : number < unit.structs.length := List.mem_range.mp (whole.mem_iff.mp listed)
      simp [structDefinitions_eq, inside]
    have unfolded : unit.orderedStructs =
        if (Task.schedule atMost unit.structTasks).2.isEmpty then
          .ok ((Task.schedule atMost unit.structTasks).1.filterMap fun number =>
            unit.structDefinitions[number]?)
        else .error .circularStructs := rfl
    rw [unfolded, noneLeft, List.filterMap_congr found, List.filterMap_eq_map']
    rfl
  · intro number members defined member listed need contained
    have below := lt_of_contains filled defined listed contained
    have inside := (List.getElem?_eq_some_iff.mp defined).1
    have isTask : ⟨number, members.filterMap CType.containedStruct?⟩ ∈ unit.structTasks :=
      mem_structTasks.mpr ⟨members, defined, rfl⟩
    apply Task.idxOf_lt_idxOf_of_mem_schedule atMost isTask
    · exact whole.mem_iff.mpr (List.mem_range.mpr inside)
    · rw [map_item_structTasks]
      exact List.nodup_range
    · exact List.mem_filterMap.mpr ⟨member, listed, CType.containedStruct?_eq_some.mpr contained⟩
    · rw [map_item_structTasks]
      exact List.mem_range.mpr (by omega)

/-- Whether structs are listed in an order in which they can be defined. -/
def DefinedInOrder (ordered : List StructDefinition) : Prop :=
  ∀ front definition back, ordered = front ++ definition :: back →
    ∀ member ∈ definition.members, ∀ number, member.Contains number →
      ∃ earlier ∈ front, earlier.number = number

/-- The structs of a filled table have an order of definition. -/
theorem exists_orderedStructs (filled : unit.structs.Filled asked) :
    ∃ ordered, unit.orderedStructs = .ok ordered ∧ ordered.Perm unit.structDefinitions ∧
      DefinedInOrder ordered := by
  obtain ⟨order, whole, ordered, earlier⟩ := exists_order filled
  refine ⟨order.map unit.definitionOf, ordered, ?_, ?_⟩
  · rw [structDefinitions_eq]
    exact whole.map _
  · intro front definition back split member listed need contained
    obtain ⟨frontNumbers, rest, rfl, rfl, restEq⟩ := List.map_eq_append_iff.mp split
    obtain ⟨number, backNumbers, rfl, rfl, rfl⟩ := List.map_eq_cons_iff.mp restEq
    have distinct := whole.nodup_iff.mpr List.nodup_range
    have inside : number < unit.structs.length :=
      List.mem_range.mp (whole.mem_iff.mp (by simp))
    have defined : unit.structs[number]? = some (unit.definitionOf number).members := by
      simp [definitionOf, inside]
    have before := earlier number _ defined member listed need contained
    have isEarlier := (FirstOccurrence.idxOf_lt_idxOf_iff_mem distinct).mp before
    exact ⟨_, List.mem_map_of_mem isEarlier, rfl⟩

/-! ## The types given to storage types -/

/-- The C type a unit gives a storage type: that of the variable of a global, of the elements of an
array, or of a member in the definition of a struct. -/
inductive Given (segment : Segment) (unit : SourceUnit) : DataType → CType → Prop
  | ofGlobal {place : Nat} {global : Global} {declared : GlobalVariable}
      (found : segment.globals[place]? = some global)
      (translated : unit.globals[place]? = some declared) :
      Given segment unit global.type declared.type
  | element {element : DataType} {elementType : CType} {length size : Nat}
      (whole : Given segment unit (.array element length) (.array elementType size)) :
      Given segment unit element elementType
  | member {members : List DataType} {definition : StructDefinition} {place : Nat}
      {member : DataType} {memberType : CType}
      (whole : Given segment unit (.struct members) (.struct definition.number))
      (defined : definition ∈ unit.structDefinitions) (listed : members[place]? = some member)
      (typed : definition.members[place]? = some memberType) :
      Given segment unit member memberType

/-- What is true of the C types a unit gives the storage types of a segment. -/
structure SharesStructs (segment : Segment) (unit : SourceUnit) : Prop where
  isGiven : ∀ type, segment.HasType type → ∃ represented, Given segment unit type represented
  sameType : ∀ {first second : DataType} {firstType secondType : CType},
    Given segment unit first firstType → Given segment unit second secondType →
      (firstType = secondType ↔ first = second)
  definition : ∀ members, segment.HasType (.struct members) →
    ∃! definition, definition ∈ unit.structDefinitions ∧
      Given segment unit (.struct members) (.struct definition.number)
  origin : ∀ definition ∈ unit.structDefinitions, ∃ members, segment.HasType (.struct members) ∧
    Given segment unit (.struct members) (.struct definition.number) ∧
      List.Forall₂ (Given segment unit) members definition.members
  numbers : (unit.structDefinitions.map StructDefinition.number).Nodup
  ordered : ∃ ordered, unit.orderedStructs = .ok ordered ∧ ordered.Perm unit.structDefinitions ∧
    DefinedInOrder ordered
  rendered : ∃ text, unit.display = .ok text

section Given

variable {segment : Segment} {catalog : Catalog} {options : Options} {type : DataType}
  {represented : CType}

/-- What is given to a storage type represents it. -/
theorem Given.represents
    (given : Given segment (ofSegment segment catalog options) type represented) :
    (ofSegment segment catalog options).structs.Represents type represented := by
  induction given with
  | ofGlobal found translated =>
    obtain ⟨global, globalFound, isVariable⟩ := exists_get?_of_variable translated
    cases found.symm.trans globalFound
    exact isVariable.type
  | element _ inductionHypothesis =>
    cases inductionHypothesis with
    | array each => exact each
  | member _ defined listed typed inductionHypothesis =>
    cases inductionHypothesis with
    | struct inTable each =>
      cases inTable.symm.trans (mem_structDefinitions.mp defined).1
      obtain ⟨memberType, located, represents⟩ :=
        Outcome.exists_getElem?_of_forall₂ (StructTable.representsAll_iff.mp each) listed
      cases typed.symm.trans located
      exact represents

/-- The members of a struct type are given the types of the members in the definition. -/
theorem Given.members {members : List DataType} {memberTypes : List CType} {number : Nat}
    (given : Given segment (ofSegment segment catalog options) (.struct members) (.struct number))
    (defined : (ofSegment segment catalog options).structs[number]? = some memberTypes) :
    List.Forall₂ (Given segment (ofSegment segment catalog options)) members memberTypes := by
  have isDefined : (⟨number, memberTypes, none⟩ : StructDefinition) ∈
      (ofSegment segment catalog options).structDefinitions :=
    mem_structDefinitions.mpr ⟨defined, rfl⟩
  cases given.represents with
  | struct inTable each =>
    cases inTable.symm.trans defined
    apply List.forall₂_iff_get.mpr
    refine ⟨(StructTable.representsAll_iff.mp each).length_eq, fun place inside insideTypes => ?_⟩
    exact .member given isDefined (List.getElem?_eq_getElem inside)
      (List.getElem?_eq_getElem insideTypes)

/-- Whatever occurs in a type that is given a C type is given one too. -/
theorem Given.exists_of_occurs {part : DataType} (occurs : part.Occurs type)
    (given : Given segment (ofSegment segment catalog options) type represented) :
    ∃ partType, Given segment (ofSegment segment catalog options) part partType := by
  induction occurs generalizing represented with
  | whole => exact ⟨represented, given⟩
  | element _ inductionHypothesis =>
    cases given.represents with
    | array each => exact inductionHypothesis given.element
  | member listed _ inductionHypothesis =>
    cases given.represents with
    | struct defined each =>
      obtain ⟨place, inside, rfl⟩ := List.getElem_of_mem listed
      obtain ⟨memberType, _, isGiven⟩ := Outcome.exists_getElem?_of_forall₂
        (given.members defined) (List.getElem?_eq_getElem inside)
      exact inductionHypothesis isGiven

/-- Every storage type of a segment is given a C type. -/
theorem exists_given (catalog : Catalog) (options : Options) (occurs : segment.HasType type) :
    ∃ represented, Given segment (ofSegment segment catalog options) type represented := by
  obtain ⟨global, listed, occurs⟩ := occurs
  obtain ⟨place, inside, rfl⟩ := List.getElem_of_mem listed
  have found : segment.get? ⟨place⟩ = some segment.globals[place] := List.getElem?_eq_getElem inside
  obtain ⟨declared, translated, _⟩ := exists_variableOf segment catalog options found
  exact (Given.ofGlobal found translated).exists_of_occurs occurs

/-- Equal storage types are given equal C types, and only these are. -/
theorem Given.sameType_iff {first second : DataType} {firstType secondType : CType}
    (firstGiven : Given segment (ofSegment segment catalog options) first firstType)
    (secondGiven : Given segment (ofSegment segment catalog options) second secondType) :
    firstType = secondType ↔ first = second := by
  constructor
  · rintro rfl
    exact firstGiven.represents.injective secondGiven.represents
  · rintro rfl
    have distinct := (translated_ofSegment segment catalog options).filled.nodup
    exact firstGiven.represents.unique distinct secondGiven.represents

/-- A struct type of a segment has one definition. -/
theorem existsUnique_definition (catalog : Catalog) (options : Options) {members : List DataType}
    (occurs : segment.HasType (.struct members)) :
    ∃! definition, definition ∈ (ofSegment segment catalog options).structDefinitions ∧
      Given segment (ofSegment segment catalog options) (.struct members)
        (.struct definition.number) := by
  obtain ⟨represented, given⟩ := exists_given catalog options occurs
  cases given.represents with
  | @struct _ memberTypes number defined _ =>
    refine ⟨⟨number, memberTypes, none⟩, ⟨mem_structDefinitions.mpr ⟨defined, rfl⟩, given⟩, ?_⟩
    rintro ⟨other, otherTypes, comment⟩ ⟨isDefined, otherGiven⟩
    cases (otherGiven.sameType_iff given).mpr rfl
    obtain ⟨otherDefined, rfl⟩ := mem_structDefinitions.mp isDefined
    cases otherDefined.symm.trans defined
    rfl

/-- Every definition is that of a struct type of the segment. -/
theorem exists_given_of_definition {definition : StructDefinition}
    (isDefined : definition ∈ (ofSegment segment catalog options).structDefinitions) :
    ∃ members, segment.HasType (.struct members) ∧
      Given segment (ofSegment segment catalog options) (.struct members)
        (.struct definition.number) ∧
      List.Forall₂ (Given segment (ofSegment segment catalog options)) members
        definition.members := by
  have filled := (translated_ofSegment segment catalog options).filled
  have defined := (mem_structDefinitions.mp isDefined).1
  obtain ⟨members, ⟨⟨id, global⟩, listed, occurs⟩, each, _⟩ := filled.exists_members defined
  have hasType : segment.HasType (.struct members) := by
    obtain ⟨place, located⟩ := List.mem_iff_getElem?.mp listed
    exact ⟨global, List.mem_of_getElem? (Segment.getElem?_numbered.mp located).2, occurs⟩
  obtain ⟨represented, given⟩ := exists_given catalog options hasType
  cases given.represents.unique filled.nodup (.struct defined each)
  exact ⟨members, hasType, given, given.members defined⟩

end Given

/-! ## Main result -/

/-- The unit of a segment has a struct definition for each of its struct types and no other, gives
two storage types the same C type only where they are equal, and can be written. -/
theorem sharesStructs_ofSegment (segment : Segment) (catalog : Catalog) (options : Options) :
    SharesStructs segment (ofSegment segment catalog options) := by
  have filled := (translated_ofSegment segment catalog options).filled
  obtain ⟨ordered, isOrdered, perm, inOrder⟩ := exists_orderedStructs filled
  have numbers : (ofSegment segment catalog options).structDefinitions.map StructDefinition.number =
      List.range (ofSegment segment catalog options).structs.length := by
    rw [structDefinitions_eq, List.map_map]
    exact List.map_id _
  exact {
    isGiven := fun _ occurs => exists_given catalog options occurs
    sameType := fun first second => first.sameType_iff second
    definition := fun _ occurs => existsUnique_definition catalog options occurs
    origin := fun _ isDefined => exists_given_of_definition isDefined
    numbers := numbers ▸ List.nodup_range
    ordered := ⟨ordered, isOrdered, perm, inOrder⟩
    rendered := ⟨_, by rw [display, isOrdered]; rfl⟩ }

end SourceUnit

end CSource

end TypeRecords
