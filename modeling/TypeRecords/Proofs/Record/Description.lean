import Mathlib.Algebra.GroupWithZero.Nat
import TypeRecords.Proofs.Record.Encoding
import TypeRecords.Proofs.Record.Ending

/-!
What a record in a segment says about its class.

Owns the meaning of a generated record: `Describes` follows each of its fields into the segment and
compares what is there with the answer for the class. A record that was just generated describes its
class, and it says the same in every later assembly, because a defined global stays what it is.
-/

namespace TypeRecords

/-! ## Fields that point into a segment -/

namespace Segment

/-- Whether a table points to an array of these items and counts them, in the 32-bit word of a
count. -/
structure HoldsTable (segment : Segment) (table : Table) (element : DataType)
    (items : List Constant) : Prop where
  array : ∃ id, table.array = some id ∧ segment.HoldsArray id element items
  count : table.count = Int32.ofNat items.length

theorem HoldsTable.toInt_count {segment : Segment} {table : Table} {element : DataType}
    {items : List Constant} (held : segment.HoldsTable table element items)
    (short : items.length < 2 ^ 31) : table.count.toInt = items.length := by
  rw [held.count]
  exact Int32.toInt_ofNat_of_lt short

/-- Whether a table is marked as one that does not apply: it points to an empty array and counts
minus one. -/
structure HoldsInapplicable (segment : Segment) (table : Table) (element : DataType) : Prop where
  array : ∃ id, table.array = some id ∧ segment.HoldsArray id element []
  count : table.count = -1

/-- Whether a place holds a text, and is null where there is none. -/
def HoldsText (segment : Segment) : Option GlobalId → Option String → Prop :=
  Option.Rel fun id text => segment.initial? id = some (.utf16 text)

/-- Whether an extension record is there exactly if the target has them, all zero. -/
structure HoldsExtension (segment : Segment) (target : Target) (extension : Option GlobalId) :
    Prop where
  present : extension.isSome = target.hasExtensionRecords
  zero : ∀ id, extension = some id → segment.initial? id = some (.zero TypeRecord.extensionType)

/-! ## What later segments keep -/

/-- Whether all defined globals of an earlier segment are still there, unchanged. -/
def KeepsDefined (later earlier : Segment) : Prop :=
  ∀ id global value, earlier.get? id = some global → global.initial = some value →
    later.get? id = some global

theorem Extends.keepsDefined {earlier later : Segment} (extended : later.Extends earlier) :
    later.KeepsDefined earlier :=
  fun _ _ _ found _ => extended.globals found

namespace KeepsDefined

variable {earlier later : Segment} (keeps : later.KeepsDefined earlier)
include keeps

theorem initial? {id : GlobalId} {value : Constant} (held : earlier.initial? id = some value) :
    later.initial? id = some value := by
  obtain ⟨global, found, defined⟩ := initial?_eq_some.mp held
  exact initial?_eq_some.mpr ⟨global, keeps id global value found defined, defined⟩

theorem holdsArray {id : GlobalId} {element : DataType} {items : List Constant}
    (held : earlier.HoldsArray id element items) : later.HoldsArray id element items := by
  obtain ⟨name, found⟩ := held
  exact ⟨name, keeps id _ _ found rfl⟩

theorem holdsTable {table : Table} {element : DataType} {items : List Constant}
    (held : earlier.HoldsTable table element items) : later.HoldsTable table element items := by
  obtain ⟨id, points, array⟩ := held.array
  exact ⟨⟨id, points, keeps.holdsArray array⟩, held.count⟩

theorem holdsInapplicable {table : Table} {element : DataType}
    (held : earlier.HoldsInapplicable table element) : later.HoldsInapplicable table element := by
  obtain ⟨id, points, array⟩ := held.array
  exact ⟨⟨id, points, keeps.holdsArray array⟩, held.count⟩

theorem holdsText {place : Option GlobalId} {text : Option String}
    (held : earlier.HoldsText place text) : later.HoldsText place text := by
  cases held with
  | none => exact .none
  | some held => exact .some (keeps.initial? held)

theorem holdsExtension {target : Target} {extension : Option GlobalId}
    (held : earlier.HoldsExtension target extension) : later.HoldsExtension target extension :=
  ⟨held.present, fun id isExtension => keeps.initial? (held.zero id isExtension)⟩

end KeepsDefined

end Segment

namespace Assembly

/-! ## Records that describe their class -/

/-- Whether a record, and the virtual table behind it, say of a class what is so. -/
structure Describes (assembly : Assembly) (generator : Generator) (id : ClassId)
    (definition : ClassDefinition) (record : TypeRecord) (slots : Option (List Constant)) :
    Prop where
  nameHash : record.nameHash = NameHash.of definition.name.display
  layout : ∃ layout, generator.catalog.instanceLayout generator.target id = .ok layout ∧
    record.instanceSize = layout.size ∧
    assembly.segment.HoldsTable record.tracedOffsets .i32
      (layout.tracedOffsets.map Constant.i32) ∧
    (definition.isInterface = true →
      assembly.segment.HoldsInapplicable record.fields FieldRecord.dataType) ∧
    (definition.isInterface = false →
      assembly.segment.HoldsTable record.fields FieldRecord.dataType
        ((fieldTable definition layout).map FieldRecord.constant))
  supertype : ∃ supertype, generator.catalog.supertype? id = .ok supertype ∧
    Option.Rel assembly.registry.RecordAt supertype record.supertype
  /-- Only the record of the root has no supertype. -/
  root : record.supertype = none ↔ id = ClassId.root
  interfaces : ∃ interfaces globals, generator.catalog.interfaces id = .ok interfaces ∧
    List.Forall₂ assembly.registry.RecordAt interfaces globals ∧
    assembly.segment.HoldsTable record.interfaces .ptr (globals.map Constant.globalAddress)
  methods : ∃ methods, generator.catalog.methodTable id = .ok methods ∧
    assembly.segment.HoldsTable record.methods MethodRecord.dataType
      (methods.map MethodRecord.constant)
  reflected : ∃ name, generator.catalog.reflectedName id = .ok name ∧
    assembly.segment.HoldsText record.packageName name.package ∧
    assembly.segment.HoldsText record.relativeName name.relative
  extension : assembly.segment.HoldsExtension generator.target record.extension
  /-- A virtual table is there exactly for a class that has instances and slots. -/
  slots : ∃ entries, generator.catalog.virtualSlots id = .ok entries ∧
    (slots.isSome ↔ definition.isAbstract = false ∧ entries ≠ []) ∧
    ∀ items, slots = some items → ∃ table, generator.catalog.virtualTable id = .ok table ∧
      items = table.map fun slot => .functionAddressOrNull slot.entryPoint

/-- Whether the global of an entry is constant and holds a record that describes the class. -/
structure HoldsRecord (assembly : Assembly) (generator : Generator) (id : ClassId)
    (definition : ClassDefinition) (entry : RecordEntry) (record : TypeRecord)
    (slots : Option (List Constant)) : Prop where
  global : ∃ global, assembly.segment.get? entry.global = some global ∧ global.constant = true ∧
    global.initial = some (Segment.recordInitial record (slots.map (Constant.array .ptr)))
  describes : assembly.Describes generator id definition record slots

/-- Whether a later assembly has all defined globals and all record globals of an earlier one. -/
structure Continues (later earlier : Assembly) : Prop where
  defined : later.segment.KeepsDefined earlier.segment
  records : ∀ {id : ClassId} {global : GlobalId}, earlier.registry.RecordAt id global →
    later.registry.RecordAt id global

theorem continues_of_extends {earlier later : Segment} (extended : later.Extends earlier)
    (registry : Registry) : Continues ⟨later, registry⟩ ⟨earlier, registry⟩ :=
  ⟨extended.keepsDefined, fun entered => entered⟩

namespace Continues

theorem refl (assembly : Assembly) : assembly.Continues assembly :=
  ⟨fun _ _ _ found _ => found, fun entered => entered⟩

theorem trans {first second third : Assembly} (later : third.Continues second)
    (earlier : second.Continues first) : third.Continues first :=
  ⟨fun id global value found defined =>
      later.defined id global value (earlier.defined id global value found defined) defined,
    fun entered => later.records (earlier.records entered)⟩

theorem supertypeAt {earlier later : Assembly} (continues : later.Continues earlier)
    {supertype : Option ClassId} {place : Option GlobalId}
    (entered : Option.Rel earlier.registry.RecordAt supertype place) :
    Option.Rel later.registry.RecordAt supertype place := by
  cases entered with
  | none => exact .none
  | some entered => exact .some (continues.records entered)

end Continues

variable {generator : Generator} {id : ClassId} {definition : ClassDefinition}
  {record : TypeRecord} {slots : Option (List Constant)} {earlier later : Assembly}

/-- A record describes its class in every later assembly. -/
theorem Describes.continue (described : earlier.Describes generator id definition record slots)
    (continues : later.Continues earlier) :
    later.Describes generator id definition record slots := by
  obtain ⟨layout, laidOut, size, traced, inapplicable, fields⟩ := described.layout
  obtain ⟨supertype, above, supertypeAt⟩ := described.supertype
  obtain ⟨interfaces, globals, implemented, interfacesAt, interfaceTable⟩ := described.interfaces
  obtain ⟨methods, tabled, methodTable⟩ := described.methods
  obtain ⟨name, named, package, relative⟩ := described.reflected
  refine {
    nameHash := described.nameHash
    layout := ⟨layout, laidOut, size, continues.defined.holdsTable traced, ?_, ?_⟩
    supertype := ⟨supertype, above, continues.supertypeAt supertypeAt⟩
    root := described.root
    interfaces := ⟨interfaces, globals, implemented, ?_,
      continues.defined.holdsTable interfaceTable⟩
    methods := ⟨methods, tabled, continues.defined.holdsTable methodTable⟩
    reflected := ⟨name, named, continues.defined.holdsText package,
      continues.defined.holdsText relative⟩
    extension := continues.defined.holdsExtension described.extension
    slots := described.slots }
  · exact fun isInterface => continues.defined.holdsInapplicable (inapplicable isInterface)
  · exact fun proper => continues.defined.holdsTable (fields proper)
  · exact interfacesAt.imp fun _ _ entered => continues.records entered

theorem HoldsRecord.continue {entry : RecordEntry}
    (holds : earlier.HoldsRecord generator id definition entry record slots)
    (continues : later.Continues earlier) :
    later.HoldsRecord generator id definition entry record slots := by
  obtain ⟨global, found, constant, value⟩ := holds.global
  exact ⟨⟨global, continues.defined _ _ _ found value, constant, value⟩,
    holds.describes.continue continues⟩

end Assembly

/-! ## Records that were just generated -/

namespace Generator

variable {generator : Generator} {id : ClassId} {entry : RecordEntry} {facts : RecordFacts}
  {parts : RecordParts} {exported : Option GlobalId} {prepared placed : Segment}
  {before after : Assembly}

theorem NamePartPlaced.growth {text : Option String} {place : Option GlobalId}
    {start finish : Segment} (run : NamePartPlaced text place start finish) :
    Segment.Growth start finish ∧ (start.Interned → finish.HoldsText place text) := by
  cases run with
  | absent => exact ⟨.refl start, fun _ => .none⟩
  | placed interned =>
    obtain ⟨growth, held⟩ := Segment.growth_internString interned
    exact ⟨growth, fun interned => .some (held interned)⟩

theorem PartsBegun.growth {start finish : Segment} (begun : PartsBegun start finish) :
    Segment.Growth start finish := by
  induction begun with
  | refl => exact .refl start
  | tail _ part inductionHypothesis =>
    cases part with
    | array _ placed => exact inductionHypothesis.trans (Segment.growth_placeArray placed).1
    | text interned => exact inductionHypothesis.trans (Segment.growth_internString interned).1

/-- What the parts of a record hold once they are placed. -/
structure PartsHeld (facts : RecordFacts) (parts : RecordParts) (segment : Segment) : Prop where
  interfaces : segment.HoldsArray parts.interfaceArray .ptr
    (parts.interfaces.map Constant.globalAddress)
  traced : segment.HoldsArray parts.tracedArray .i32 (facts.layout.tracedOffsets.map Constant.i32)
  fields : segment.HoldsArray parts.fieldArray FieldRecord.dataType
    (facts.fields.map FieldRecord.constant)
  methods : segment.HoldsArray parts.methodArray MethodRecord.dataType
    (facts.methods.map MethodRecord.constant)
  package : segment.HoldsText parts.packageName facts.reflected.package
  relative : segment.HoldsText parts.relativeName facts.reflected.relative

theorem PartsPlaced.growth {start finish : Segment} (run : PartsPlaced facts parts start finish) :
    Segment.Growth start finish ∧ (start.Interned → PartsHeld facts parts finish) := by
  cases run with
  | inOrder interfaces traced fields methods package relative =>
    obtain ⟨toInterfaces, interfaces⟩ := Segment.growth_placeArray interfaces
    obtain ⟨toTraced, traced⟩ := Segment.growth_placeArray traced
    obtain ⟨toFields, fields⟩ := Segment.growth_placeArray fields
    obtain ⟨toMethods, methods⟩ := Segment.growth_placeArray methods
    obtain ⟨toPackage, package⟩ := package.growth
    obtain ⟨toRelative, relative⟩ := relative.growth
    have fromPackage := toRelative
    have fromMethods := toPackage.trans fromPackage
    have fromFields := toMethods.trans fromMethods
    have fromTraced := toFields.trans fromFields
    have fromInterfaces := toTraced.trans fromTraced
    refine ⟨toInterfaces.trans fromInterfaces, fun interned => ?_⟩
    have atMethods := (((toInterfaces.trans toTraced).trans toFields).trans toMethods).interned
      interned
    exact {
      interfaces := fromInterfaces.extended.keepsDefined.holdsArray interfaces
      traced := fromTraced.extended.keepsDefined.holdsArray traced
      fields := fromFields.extended.keepsDefined.holdsArray fields
      methods := fromMethods.extended.keepsDefined.holdsArray methods
      package := fromPackage.extended.keepsDefined.holdsText (package atMethods)
      relative := relative (toPackage.interned atMethods) }

theorem Exported.growth {definition : ClassDefinition} {global : GlobalId}
    {start finish : Segment} (run : Exported definition global exported start finish) :
    Segment.Growth start finish := by
  cases run with
  | absent => exact .refl start
  | placed _ _ _ used =>
    exact (Segment.growth_withGlobal rfl).trans (Segment.growth_withUsed _ used)

namespace RecordRun

variable (run : generator.RecordRun id entry facts parts exported prepared placed before after)
include run

/-- The global of the entry was undefined and holds the record in the end. -/
theorem global_completed :
    ∃ declared, prepared.get? entry.global = some declared ∧ declared.initial = none ∧
      after.segment.get? entry.global = some (Segment.completedGlobal declared
        (Segment.recordInitial (parts.record facts) facts.virtualTable)) := by
  obtain ⟨_, declared, found, isOpen, changed⟩ := Segment.placeRecord_eq_ok.mp run.recordPlaced
  refine ⟨declared, found, isOpen, run.addressExported.growth.extended.globals ?_⟩
  rw [← changed, Segment.get?_withChanged found, if_pos rfl]

/-- Placing a record changes no global but that of the entry. -/
theorem get?_of_ne {other : GlobalId} (differs : other ≠ entry.global) {global : Global}
    (located : prepared.get? other = some global) : after.segment.get? other = some global := by
  obtain ⟨_, declared, found, _, changed⟩ := Segment.placeRecord_eq_ok.mp run.recordPlaced
  refine run.addressExported.growth.extended.globals ?_
  rw [← changed, Segment.get?_withChanged found, if_neg differs]
  exact located

theorem recordAt
    {other : ClassId} {global : GlobalId} (entered : before.registry.RecordAt other global) :
    after.registry.RecordAt other global := by
  obtain ⟨present, located, rfl⟩ := entered
  rw [Registry.RecordAt, run.registered]
  by_cases same : other = id
  · subst same
    rw [run.entered] at located
    cases located
    refine ⟨{ entry with record := some (parts.record facts), exportGlobal := exported }, ?_, rfl⟩
    rw [Registry.find?_withEntry, if_pos rfl]
  · exact ⟨present, by rw [Registry.find?_withEntry, if_neg same, located], rfl⟩

theorem continues_prepared : after.Continues ⟨prepared, before.registry⟩ := by
  refine ⟨fun other global value located defined => ?_, run.recordAt⟩
  refine run.get?_of_ne ?_ located
  rintro rfl
  obtain ⟨declared, found, isOpen, _⟩ := run.global_completed
  rw [found] at located
  cases located
  rw [isOpen] at defined
  cases defined

theorem continues : after.Continues before :=
  run.continues_prepared.trans
    (Assembly.continues_of_extends run.partsPlaced.growth.1.extended before.registry)

/-- A virtual table is placed exactly for a class that has instances and slots. -/
theorem exists_slots
    {entries : List DispatchEntry} (opened : generator.catalog.virtualSlots id = .ok entries) :
    ∃ slots, facts.virtualTable = slots.map (Constant.array .ptr) ∧
      (slots.isSome ↔ facts.definition.isAbstract = false ∧ entries ≠ []) ∧
      ∀ items, slots = some items → ∃ table, generator.catalog.virtualTable id = .ok table ∧
        items = table.map fun slot => .functionAddressOrNull slot.entryPoint := by
  rcases recordVirtualTable_eq_ok.mp run.answers.virtualTable with
    ⟨isAbstract, absent⟩ | ⟨isConcrete, table, dispatched, chosen⟩
  · refine ⟨none, absent, ?_, fun items present => by cases present⟩
    simp [isAbstract]
  · obtain ⟨opened', asked, pairs⟩ := virtualTable_eq_ok.mp dispatched
    rw [opened] at asked
    cases asked
    -- The table is left out exactly if it has no slots, and it has as many as the class.
    cases pairs with
    | nil =>
      refine ⟨none, chosen, ?_, fun items present => by cases present⟩
      simp
    | @cons entry slot entries table first rest =>
      refine ⟨some _, chosen, ?_, fun items present => ⟨_, dispatched, ?_⟩⟩
      · simp [isConcrete]
      · exact (Option.some.inj present).symm

/-- The parts of a record, and what was there before, describe its class. -/
theorem describes_prepared (interned : before.segment.Interned)
    (extension : before.segment.HoldsExtension generator.target entry.extension)
    {entries : List DispatchEntry} (opened : generator.catalog.virtualSlots id = .ok entries)
    {slots : Option (List Constant)}
    (present : slots.isSome ↔ facts.definition.isAbstract = false ∧ entries ≠ [])
    (filled : ∀ items, slots = some items → ∃ table,
      generator.catalog.virtualTable id = .ok table ∧
        items = table.map fun slot => .functionAddressOrNull slot.entryPoint) :
    Assembly.Describes ⟨prepared, before.registry⟩ generator id facts.definition
      (parts.record facts) slots := by
  obtain ⟨growth, held⟩ := run.partsPlaced.growth
  have held := held interned
  have fromStart := Assembly.continues_of_extends growth.extended before.registry
  have above := run.answers.supertype
  rw [Catalog.supertype?_eq_ok run.answers.definition, Except.ok.injEq] at above
  refine {
    nameHash := rfl
    layout := ⟨facts.layout, run.answers.layout, rfl, ⟨⟨_, rfl, held.traced⟩, ?_⟩, ?_, ?_⟩
    supertype := ⟨facts.supertype, run.answers.supertype, run.supertype⟩
    root := ?_
    interfaces := ⟨facts.interfaces, parts.interfaces, run.answers.interfaces, run.interfaces,
      ⟨_, rfl, held.interfaces⟩, ?_⟩
    methods := ⟨facts.methods, run.answers.methods, ⟨_, rfl, held.methods⟩, ?_⟩
    reflected := ⟨facts.reflected, run.answers.reflected, held.package, held.relative⟩
    extension := ?_
    slots := ⟨entries, opened, present, filled⟩ }
  · rw [List.length_map]
    rfl
  · intro isInterface
    have fields := held.fields
    rw [RecordFacts.fields, if_pos isInterface] at fields
    refine ⟨⟨parts.fieldArray, ?_, fields⟩, ?_⟩ <;>
      simp [RecordParts.record, isInterface, Table.notApplicable]
  · intro proper
    have fields := held.fields
    rw [RecordFacts.fields, proper] at fields
    refine ⟨⟨parts.fieldArray, ?_, fields⟩, ?_⟩ <;>
      simp [RecordParts.record, RecordFacts.fields, proper, Table.placed]
  · have related := run.supertype
    rw [← above, ClassDefinition.supertype?] at related
    show parts.supertype = none ↔ _
    generalize parts.supertype = place at related ⊢
    by_cases isRoot : id = ClassId.root
    · rw [if_pos isRoot] at related
      cases related
      simp [isRoot]
    · rw [if_neg isRoot] at related
      cases related
      simp [isRoot]
  · rw [List.length_map]
    rfl
  · rw [List.length_map]
    rfl
  · show Segment.HoldsExtension _ _ parts.extension
    rw [run.extension]
    exact fromStart.defined.holdsExtension extension

/-- A record that was just generated describes its class. -/
theorem exists_holdsRecord (interned : before.segment.Interned)
    (extension : before.segment.HoldsExtension generator.target entry.extension)
    {entries : List DispatchEntry} (opened : generator.catalog.virtualSlots id = .ok entries) :
    ∃ slots, after.HoldsRecord generator id facts.definition entry (parts.record facts) slots := by
  obtain ⟨slots, shaped, present, filled⟩ := run.exists_slots opened
  obtain ⟨declared, _, _, found⟩ := run.global_completed
  refine ⟨slots, ⟨_, found, rfl, ?_⟩, ?_⟩
  · rw [← shaped]
    rfl
  · exact (run.describes_prepared interned extension opened present filled).continue
      run.continues_prepared

end RecordRun

end Generator

end TypeRecords
