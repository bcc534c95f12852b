import TypeRecords.Proofs.Record.Description
import TypeRecords.Record.Module

/-!
What holds between the steps of a build.

Owns the invariants of an assembly. It is coherent if the record global of an entry waits for its
record or holds one that describes its class, and no other global waits. Every step keeps that,
whatever the order of the steps. It is consistent if its segment is closed too. Generating a record
keeps that if the records it refers to were generated before, which the order of the classes
provides.
-/

namespace TypeRecords

namespace Assembly

/-- The invariant of an assembly that is being built in any order. -/
structure Coherent (assembly : Assembly) (generator : Generator) : Prop where
  interned : assembly.segment.Interned
  reserved : ∀ {id : ClassId} {entry : RecordEntry}, assembly.registry.find? id = some entry →
    entry.record = none → ∃ definition, generator.catalog.definition? id = some definition ∧
      assembly.segment.get? entry.global = some (generator.declaredGlobal definition)
  generated : ∀ {id : ClassId} {entry : RecordEntry} {record : TypeRecord},
    assembly.registry.find? id = some entry → entry.record = some record →
      ∃ definition slots, generator.catalog.definition? id = some definition ∧
        assembly.HoldsRecord generator id definition entry record slots
  extension : ∀ {id : ClassId} {entry : RecordEntry}, assembly.registry.find? id = some entry →
    assembly.segment.HoldsExtension generator.target entry.extension
  distinct : assembly.registry.GlobalsDistinct
  undefined : ∀ {id : GlobalId} {global : Global}, assembly.segment.get? id = some global →
    global.initial = none → ∃ waiting entry, assembly.registry.find? waiting = some entry ∧
      entry.record = none ∧ entry.global = id

/-- The invariant of an assembly that is being built in the order of the classes. -/
structure Consistent (assembly : Assembly) (generator : Generator) : Prop
    extends assembly.Coherent generator where
  closed : assembly.segment.Closed

theorem coherent_empty (generator : Generator) : empty.Coherent generator where
  interned := fun _ _ found => by cases found
  reserved := fun found => by cases found
  generated := fun found => by cases found
  extension := fun found => by cases found
  distinct := fun _ _ _ _ found => by cases found
  undefined := fun found => by cases found

theorem consistent_empty (generator : Generator) : empty.Consistent generator :=
  ⟨coherent_empty generator, Segment.closed_empty⟩

variable {generator : Generator} {id : ClassId} {before after : Assembly}

/-- The record global of every entry is there. -/
theorem Coherent.exists_global (coherent : before.Coherent generator) {entry : RecordEntry}
    (entered : before.registry.find? id = some entry) :
    ∃ global, before.segment.get? entry.global = some global := by
  cases isGenerated : entry.record with
  | none =>
    obtain ⟨definition, _, found⟩ := coherent.reserved entered isGenerated
    exact ⟨_, found⟩
  | some record =>
    obtain ⟨definition, slots, _, holds⟩ := coherent.generated entered isGenerated
    obtain ⟨global, found, _⟩ := holds.global
    exact ⟨global, found⟩

/-- The record of a class is there once it is generated. -/
theorem Coherent.isInitialized (coherent : before.Coherent generator) {entry : RecordEntry}
    {record : TypeRecord} (entered : before.registry.find? id = some entry)
    (isGenerated : entry.record = some record) : before.segment.IsInitialized entry.global := by
  obtain ⟨definition, slots, _, holds⟩ := coherent.generated entered isGenerated
  obtain ⟨global, found, _, value⟩ := holds.global
  exact ⟨_, Segment.initial?_eq_some.mpr ⟨global, found, value⟩⟩

/-- What is placed beside the records keeps the invariant. -/
theorem Coherent.grow (coherent : before.Coherent generator) {segment : Segment}
    (growth : Segment.Growth before.segment segment) :
    Coherent { before with segment } generator where
  interned := growth.interned coherent.interned
  reserved := fun entered isOpen => by
    obtain ⟨definition, defined, found⟩ := coherent.reserved entered isOpen
    exact ⟨definition, defined, growth.extended.globals found⟩
  generated := fun entered isGenerated => by
    obtain ⟨definition, slots, defined, holds⟩ := coherent.generated entered isGenerated
    exact ⟨definition, slots, defined,
      holds.continue (continues_of_extends growth.extended before.registry)⟩
  extension := fun entered =>
    growth.extended.keepsDefined.holdsExtension (coherent.extension entered)
  distinct := coherent.distinct
  undefined := fun found isOpen => coherent.undefined (growth.undefined found isOpen) isOpen

end Assembly

namespace Generator

open Assembly

variable {generator : Generator} {id : ClassId} {before after : Assembly}

/-! ## Declaring a record -/

theorem ExtensionPlaced.growth {name : String} {extension : Option GlobalId}
    {start finish : Segment} (run : generator.ExtensionPlaced name extension start finish) :
    Segment.Growth start finish ∧ (start.Closed → finish.Closed) ∧
      finish.HoldsExtension generator.target extension := by
  cases run with
  | absent _ lacking =>
    refine ⟨.refl _, fun closed => closed, by simp [lacking], fun id present => ?_⟩
    cases present
  | placed having placed =>
    obtain ⟨growth, held⟩ := Segment.growth_placeWritable placed
    refine ⟨growth, fun closed => closed.placeWritable placed, by simp [having], ?_⟩
    rintro _ ⟨⟩
    exact held

namespace DeclareRun

variable {definition : ClassDefinition} {extension : Option GlobalId}
  (run : generator.DeclareRun id definition extension before after)
include run

/-- Declaring a record changes nothing that was there. -/
theorem extended : after.segment.Extends before.segment :=
  run.extensionPlaced.growth.1.extended.trans (Segment.extends_withGlobal before.segment _)

theorem continues : after.Continues before := by
  refine ⟨run.extended.keepsDefined, fun {other global} entered => ?_⟩
  obtain ⟨entry, located, rfl⟩ := entered
  have differs : other ≠ id := by
    rintro rfl
    rw [run.isNew] at located
    cases located
  exact ⟨entry, by rw [run.registered, Registry.find?_withEntry, if_neg differs, located], rfl⟩

theorem get?_nextId :
    after.segment.get? before.segment.nextId = some (generator.declaredGlobal definition) :=
  run.extensionPlaced.growth.1.extended.globals (Segment.get?_withGlobal_nextId _ _)

theorem find?_eq_some {other : ClassId} {entry : RecordEntry} :
    after.registry.find? other = some entry ↔
      (other = id ∧ ⟨before.segment.nextId, extension, none, none⟩ = entry) ∨
      (other ≠ id ∧ before.registry.find? other = some entry) := by
  rw [run.registered, Registry.find?_withEntry_eq_some]

/-- Declaring a record keeps the invariants. -/
theorem coherent (coherent : before.Coherent generator) : after.Coherent generator := by
  obtain ⟨growth, _, held⟩ := run.extensionPlaced.growth
  have isFresh : ∀ {other entry}, before.registry.find? other = some entry →
      entry.global ≠ before.segment.nextId := by
    intro other entry entered
    obtain ⟨global, found⟩ := coherent.exists_global entered
    exact Segment.ne_nextId_of_get? found
  have continues := run.continues
  refine {
    interned := growth.interned (coherent.interned.withGlobal _)
    reserved := fun {other entry} entered isOpen => ?_
    generated := fun {other entry record} entered isGenerated => ?_
    extension := fun {other entry} entered => ?_
    distinct := ?_
    undefined := fun {place global} found isOpen => ?_ }
  · rcases run.find?_eq_some.mp entered with ⟨rfl, rfl⟩ | ⟨_, known⟩
    · exact ⟨definition, run.defined, run.get?_nextId⟩
    · obtain ⟨other, defined, found⟩ := coherent.reserved known isOpen
      exact ⟨other, defined, run.extended.globals found⟩
  · rcases run.find?_eq_some.mp entered with ⟨rfl, rfl⟩ | ⟨_, known⟩
    · cases isGenerated
    · obtain ⟨other, slots, defined, holds⟩ := coherent.generated known isGenerated
      exact ⟨other, slots, defined, holds.continue continues⟩
  · rcases run.find?_eq_some.mp entered with ⟨rfl, rfl⟩ | ⟨_, known⟩
    · exact held
    · exact continues.defined.holdsExtension (coherent.extension known)
  · rw [run.registered]
    exact coherent.distinct.withEntry fun other entry _ known => isFresh known
  · -- The only global that is new and waits is the declared one.
    have atDeclared := growth.undefined found isOpen
    rw [Segment.get?_withGlobal] at atDeclared
    split at atDeclared
    · rename_i isNew
      exact ⟨id, _, run.find?_eq_some.mpr (.inl ⟨rfl, rfl⟩), rfl, isNew.symm⟩
    · obtain ⟨waiting, entry, known, isWaiting, same⟩ := coherent.undefined atDeclared isOpen
      have differs : waiting ≠ id := by
        rintro rfl
        rw [run.isNew] at known
        cases known
      exact ⟨waiting, entry, run.find?_eq_some.mpr (.inr ⟨differs, known⟩), isWaiting, same⟩

theorem consistent (consistent : before.Consistent generator) : after.Consistent generator := by
  refine ⟨run.coherent consistent.toCoherent, run.extensionPlaced.growth.2.1 ?_⟩
  exact consistent.closed.withGlobal (fun _ defined => by cases defined)
    fun _ defined => by cases defined

end DeclareRun

/-! ## Generating a record -/

variable {entry : RecordEntry} {facts : RecordFacts} {parts : RecordParts}
  {exported : Option GlobalId} {start finish prepared placed : Segment}

theorem NamePartPlaced.closed {text : Option String} {place : Option GlobalId}
    (run : NamePartPlaced text place start finish) (closed : start.Closed) : finish.Closed := by
  cases run with
  | absent => exact closed
  | placed interned => exact closed.internString interned

/-- The arrays and strings of a record can be placed once its interfaces have their records. -/
theorem PartsPlaced.closed (run : PartsPlaced facts parts start finish) (closed : start.Closed)
    (interfacesReady : ∀ global ∈ parts.interfaces, start.IsInitialized global) :
    finish.Closed := by
  cases run with
  | inOrder interfaces traced fields methods package relative =>
    have withInterfaces := closed.placeArray interfaces (Segment.admits_addresses interfacesReady)
    have withTraced := withInterfaces.placeArray traced
      (Segment.admits_array_map Constant.isPlain_i32 _)
    have withFields := withTraced.placeArray fields
      (Segment.admits_array_map FieldRecord.isPlain_constant _)
    have withMethods := withFields.placeArray methods
      (Segment.admits_array_map MethodRecord.isPlain_constant _)
    exact relative.closed (package.closed withMethods)

theorem Exported.closed {definition : ClassDefinition} {global : GlobalId}
    (run : Exported definition global exported start finish) (closed : start.Closed)
    (isInitialized : start.IsInitialized global) : finish.Closed := by
  cases run with
  | absent => exact closed
  | placed _ _ _ used =>
    refine (closed.withGlobal ?_ ?_).withUsed used
    · rintro _ ⟨⟩
      rfl
    · rintro _ ⟨⟩
      refine ⟨trivial, fun target occurs => ?_⟩
      rw [List.mem_singleton.mp occurs]
      exact isInitialized

/-- Whether the records of the supertype and of the interfaces are there. -/
structure PartsReady (parts : RecordParts) (segment : Segment) : Prop where
  supertype : ∀ global, parts.supertype = some global → segment.IsInitialized global
  interfaces : ∀ global ∈ parts.interfaces, segment.IsInitialized global

namespace RecordRun

variable (run : generator.RecordRun id entry facts parts exported prepared placed before after)
include run

/-- Everything a record refers to is defined before it is placed. -/
theorem isInitialized_of_mem_references
    (coherent : before.Coherent generator) (ready : PartsReady parts before.segment)
    {global : GlobalId} (occurs : some global ∈ (parts.record facts).references) :
    prepared.IsInitialized global := by
  obtain ⟨growth, held⟩ := run.partsPlaced.growth
  have held := held coherent.interned
  have text : ∀ {place text}, prepared.HoldsText place text → some global = place →
      prepared.IsInitialized global := by
    intro place text held isPlace
    cases held with
    | none => cases isPlace
    | some held =>
      cases isPlace
      exact ⟨_, held⟩
  have fields : (parts.record facts).fields.array = some parts.fieldArray := by
    unfold RecordParts.record
    dsimp only
    split <;> rfl
  unfold TypeRecord.references at occurs
  simp only [List.mem_cons, List.not_mem_nil, or_false, fields] at occurs
  rcases occurs with isSupertype | isTraced | isInterfaces | isMethods | isFields | isPackage |
    isRelative | isExtension
  · exact growth.extended.isInitialized (ready.supertype global isSupertype.symm)
  · cases isTraced
    exact ⟨_, held.traced.initial?⟩
  · cases isInterfaces
    exact ⟨_, held.interfaces.initial?⟩
  · cases isMethods
    exact ⟨_, held.methods.initial?⟩
  · cases isFields
    exact ⟨_, held.fields.initial?⟩
  · exact text held.package isPackage
  · exact text held.relative isRelative
  · have isEntryExtension : entry.extension = some global := by
      rw [← run.extension]
      exact isExtension.symm
    exact growth.extended.isInitialized
      ⟨_, (coherent.extension run.entered).zero global isEntryExtension⟩

/-- Generating a record keeps the segment closed. -/
theorem closed
    (consistent : before.Consistent generator) (ready : PartsReady parts before.segment) :
    after.segment.Closed := by
  have preparedClosed := run.partsPlaced.closed consistent.closed ready.interfaces
  obtain ⟨_, declared, found, isOpen, changed⟩ := Segment.placeRecord_eq_ok.mp run.recordPlaced
  have admitted : prepared.Admits
      (Segment.recordInitial (parts.record facts) facts.virtualTable) := by
    refine Segment.admits_recordInitial
      (fun global occurs => run.isInitialized_of_mem_references consistent.toCoherent ready
      occurs) ?_
    intro table present
    rcases recordVirtualTable_eq_ok.mp run.answers.virtualTable with
      ⟨_, absent⟩ | ⟨_, slots, _, chosen⟩
    · rw [absent] at present
      cases present
    · rw [chosen] at present
      split at present
      · cases present
      · cases present
        exact VirtualSlot.isPlain_tableConstant slots
  have placedClosed : placed.Closed := by
    rw [← changed]
    refine preparedClosed.withChanged found isOpen ?_ ?_
    · rintro _ ⟨⟩
      rfl
    · rintro _ ⟨⟩
      exact admitted
  have held : placed.initial? entry.global =
      some (Segment.recordInitial (parts.record facts) facts.virtualTable) := by
    rw [← changed, Segment.initial?_withChanged found, if_pos rfl]
    rfl
  exact run.addressExported.closed placedClosed ⟨_, held⟩

theorem interned (coherent : before.Coherent generator) : after.segment.Interned := by
  obtain ⟨_, declared, found, isOpen, changed⟩ := Segment.placeRecord_eq_ok.mp run.recordPlaced
  refine run.addressExported.growth.interned ?_
  rw [← changed]
  exact (run.partsPlaced.growth.1.interned coherent.interned).withChanged found isOpen _

/-- A global that waits after the step waited before, and is not that of the class. -/
theorem get?_of_undefined
    {place : GlobalId} {global : Global} (located : after.segment.get? place = some global)
    (waits : global.initial = none) :
    place ≠ entry.global ∧ before.segment.get? place = some global := by
  obtain ⟨_, declared, found, isOpen, changed⟩ := Segment.placeRecord_eq_ok.mp run.recordPlaced
  have atPlaced := run.addressExported.growth.undefined located waits
  rw [← changed, Segment.get?_withChanged found] at atPlaced
  split at atPlaced
  · cases atPlaced
    cases waits
  · rename_i differs
    exact ⟨differs, run.partsPlaced.growth.1.undefined atPlaced waits⟩

theorem find?_eq_some {other : ClassId} {present : RecordEntry} :
    after.registry.find? other = some present ↔
      (other = id ∧
        { entry with record := some (parts.record facts), exportGlobal := exported } = present) ∨
      (other ≠ id ∧ before.registry.find? other = some present) := by
  rw [run.registered, Registry.find?_withEntry_eq_some]

/-- Generating a record keeps the invariants, one of them in the order of the classes only. -/
theorem coherent (coherent : before.Coherent generator) {entries : List DispatchEntry}
    (opened : generator.catalog.virtualSlots id = .ok entries) : after.Coherent generator := by
  have continues := run.continues
  refine {
    interned := run.interned coherent
    reserved := fun {other present} entered isOpen => ?_
    generated := fun {other present record} entered isGenerated => ?_
    extension := fun {other present} entered => ?_
    distinct := ?_
    undefined := fun {place global} located waits => ?_ }
  · rcases run.find?_eq_some.mp entered with ⟨rfl, rfl⟩ | ⟨differs, known⟩
    · cases isOpen
    · obtain ⟨definition, defined, found⟩ := coherent.reserved known isOpen
      have otherGlobal : present.global ≠ entry.global :=
        fun same => differs (coherent.distinct other id present entry known run.entered same)
      exact ⟨definition, defined,
        run.get?_of_ne otherGlobal (run.partsPlaced.growth.1.extended.globals found)⟩
  · rcases run.find?_eq_some.mp entered with ⟨rfl, rfl⟩ | ⟨_, known⟩
    · cases isGenerated
      obtain ⟨slots, holds⟩ := run.exists_holdsRecord coherent.interned
        (coherent.extension run.entered) opened
      exact ⟨facts.definition, slots, run.answers.definition, holds.global, holds.describes⟩
    · obtain ⟨definition, slots, defined, holds⟩ := coherent.generated known isGenerated
      exact ⟨definition, slots, defined, holds.continue continues⟩
  · rcases run.find?_eq_some.mp entered with ⟨rfl, rfl⟩ | ⟨_, known⟩
    · have held := continues.defined.holdsExtension (coherent.extension run.entered)
      exact held
    · exact continues.defined.holdsExtension (coherent.extension known)
  · rw [run.registered]
    exact coherent.distinct.withEntry fun other present differs known same =>
      differs (coherent.distinct other id present entry known run.entered same)
  · -- What waits now waited before, for another class.
    obtain ⟨differs, found⟩ := run.get?_of_undefined located waits
    obtain ⟨waiting, present, known, isWaiting, rfl⟩ := coherent.undefined found waits
    have otherClass : waiting ≠ id := by
      rintro rfl
      rw [run.entered] at known
      cases known
      exact differs rfl
    exact ⟨waiting, present, run.find?_eq_some.mpr (.inr ⟨otherClass, known⟩), isWaiting, rfl⟩

theorem consistent
    (consistent : before.Consistent generator) (ready : PartsReady parts before.segment)
    {entries : List DispatchEntry} (opened : generator.catalog.virtualSlots id = .ok entries) :
    after.Consistent generator :=
  ⟨run.coherent consistent.toCoherent opened, run.closed consistent ready⟩

end RecordRun

end Generator

end TypeRecords
