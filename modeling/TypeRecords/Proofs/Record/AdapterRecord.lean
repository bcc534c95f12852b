import TypeRecords.Proofs.Record.Adapter
import TypeRecords.Proofs.Record.AdapterMethods
import TypeRecords.Proofs.Record.Module

/-!
What the record of an adapter says.

Owns the meaning of a generated adapter: its record points to a table of the one interface, to the
merged method table and to the record of the root class, whose virtual table stands behind it. It
is generated wherever its methods and that virtual table are there, because what is placed for it
has names of its own and counts that agree.
-/

namespace TypeRecords

namespace Assembly

/-- Whether a global is constant and holds the record of an adapter of an interface, with these
methods, and this virtual table behind it. -/
structure HoldsAdapter (assembly : Assembly) (target : Target) (interface : ClassId)
    (methods : List MethodRecord) (slots : List VirtualSlot) (place : GlobalId)
    (record : TypeRecord) : Prop where
  global : ∃ global, assembly.segment.get? place = some global ∧ global.constant = true ∧
    global.initial = some (Segment.recordInitial record (some (VirtualSlot.tableConstant slots)))
  nameHash : record.nameHash = NameHash.of ""
  instanceSize : record.instanceSize = 0
  supertype : ∃ root, assembly.registry.RecordAt ClassId.root root ∧ record.supertype = some root
  interfaces : ∃ only, assembly.registry.RecordAt interface only ∧
    assembly.segment.HoldsTable record.interfaces .ptr [.globalAddress only]
  methods : assembly.segment.HoldsTable record.methods MethodRecord.dataType
    (methods.map MethodRecord.constant)
  tracedOffsets : record.tracedOffsets = .null
  fields : record.fields = .null
  packageName : record.packageName = none
  relativeName : record.relativeName = none
  extension : assembly.segment.HoldsExtension target record.extension

end Assembly

namespace Generator

variable {generator : Generator} {interface : ClassId} {overrides : List Override}
  {definition : ClassDefinition} {methods : List MethodRecord} {parts : AdapterParts}
  {slots : List VirtualSlot} {prepared finish : Segment} {before : Assembly}

/-! ## What was placed -/

/-- What the parts of an adapter hold once they are placed. -/
structure AdapterPartsHeld (generator : Generator) (methods : List MethodRecord)
    (parts : AdapterParts) (segment : Segment) : Prop where
  interfaces : segment.HoldsArray parts.interfaceArray .ptr [.globalAddress parts.interfaceGlobal]
  methods : segment.HoldsArray parts.methodArray MethodRecord.dataType
    (methods.map MethodRecord.constant)
  extension : segment.HoldsExtension generator.target parts.extension

theorem AdapterPrepared.held
    (prepares : generator.AdapterPrepared interface overrides definition methods parts prepared
      before) : generator.AdapterPartsHeld methods parts prepared := by
  obtain ⟨withInterfaces, withMethods, placedInterfaces, placedMethods, placedExtension⟩ :=
    prepares.partsPlaced
  obtain ⟨_, interfaces⟩ := Segment.growth_placeArray placedInterfaces
  obtain ⟨toMethods, methods⟩ := Segment.growth_placeArray placedMethods
  obtain ⟨toExtension, _, extension⟩ := placedExtension.growth
  exact {
    interfaces := (toMethods.trans toExtension).extended.keepsDefined.holdsArray interfaces
    methods := toExtension.extended.keepsDefined.holdsArray methods
    extension := extension }

theorem AdapterRun.holdsAdapter
    (run : generator.AdapterRun interface overrides definition methods parts slots prepared before
      finish) :
    Assembly.HoldsAdapter { before with segment := finish } generator.target interface methods slots
      prepared.nextId (parts.record methods) := by
  have held := run.toAdapterPrepared.held
  have keeps : finish.KeepsDefined prepared := by
    rw [← run.finish_eq]
    exact (Segment.extends_withGlobal prepared _).keepsDefined
  have found : finish.get? prepared.nextId = some (Segment.completedGlobal
      (adapterGlobal definition parts prepared) (Segment.recordInitial (parts.record methods)
        (some (VirtualSlot.tableConstant slots)))) := by
    rw [← run.finish_eq]
    exact Segment.get?_withGlobal_nextId prepared _
  refine {
    global := ⟨_, found, rfl, rfl⟩
    nameHash := rfl
    instanceSize := rfl
    supertype := ⟨parts.rootGlobal, run.rootAt, rfl⟩
    interfaces := ⟨parts.interfaceGlobal, run.interfaceAt, ?_⟩
    methods := ⟨⟨_, rfl, keeps.holdsArray held.methods⟩, ?_⟩
    tracedOffsets := rfl
    fields := rfl
    packageName := rfl
    relativeName := rfl
    extension := keeps.holdsExtension held.extension }
  · exact ⟨⟨_, rfl, keeps.holdsArray held.interfaces⟩, rfl⟩
  · rw [List.length_map]
    rfl

/-! ## That it is placed -/

/-- The record can be placed once its parts are: it is a new global, and the counts agree. -/
theorem AdapterPrepared.exists_placed
    (prepares : generator.AdapterPrepared interface overrides definition methods parts prepared
      before) (slots : List VirtualSlot) :
    ∃ finish, Segment.placeRecord prepared.nextId (parts.record methods)
      (some (VirtualSlot.tableConstant slots))
      (prepared.withGlobal (adapterGlobal definition parts prepared)) = .ok ((), finish) := by
  have held := prepares.held
  have keeps := (Segment.extends_withGlobal prepared
    (adapterGlobal definition parts prepared)).keepsDefined
  refine ⟨_, Segment.placeRecord_eq_ok.mpr ⟨fun table listed => ?_, _,
    Segment.get?_withGlobal_nextId prepared _, rfl, rfl⟩⟩
  simp only [TypeRecord.tables, List.mem_cons, List.not_mem_nil, or_false] at listed
  rcases listed with rfl | rfl | rfl | rfl
  · rfl
  · exact (keeps.holdsArray held.interfaces).checkTable_placed rfl _
  · exact (keeps.holdsArray held.methods).checkTable_placed (List.length_map _) _
  · rfl

/-- Where the methods of an adapter are there, only the virtual table of the root class can keep it
from being generated. That is asked for after the parts are placed. -/
theorem exists_adapterPrepared (defined : generator.catalog.definition? interface = some definition)
    (isInterface : definition.isInterface = true)
    (tabled : generator.catalog.adapterMethods interface definition.name overrides = .ok methods)
    (hasInterface : before.registry.Has interface) (hasRoot : before.registry.Has ClassId.root) :
    ∃ parts prepared,
      generator.AdapterPrepared interface overrides definition methods parts prepared before ∧
      (∀ failure, generator.catalog.virtualTable ClassId.root = .error failure →
        generator.generateAdapter interface overrides before =
          .error failure { before with segment := prepared }) ∧
      ∀ slots, generator.catalog.virtualTable ClassId.root = .ok slots →
        ∃ finish, generator.generateAdapter interface overrides before =
          .ok prepared.nextId { before with segment := finish } := by
  have ending := generator.adapterEnding interface overrides before
  generalize generator.generateAdapter interface overrides before = result at ending ⊢
  cases ending with
  | generated run =>
    cases defined.symm.trans run.defined
    cases tabled.symm.trans run.tabled
    refine ⟨_, _, run.toAdapterPrepared, fun failure asked => ?_, fun _ _ => ⟨_, rfl⟩⟩
    rw [run.dispatched] at asked
    cases asked
  | stopped stop =>
    cases stop with
    | undefined asked =>
      rw [Catalog.definition_eq_ok.mpr defined] at asked
      cases asked
    | notInterface definedAgain isProper =>
      cases defined.symm.trans definedAgain
      rw [isInterface] at isProper
      cases isProper
    | methods definedAgain asked =>
      cases defined.symm.trans definedAgain
      rw [tabled] at asked
      cases asked
    | interfaceUndeclared absent =>
      obtain ⟨entry, found⟩ := hasInterface
      rw [absent] at found
      cases found
    | rootUndeclared _ absent =>
      obtain ⟨entry, found⟩ := hasRoot
      rw [absent] at found
      cases found
    | virtualTable prepares asked =>
      cases defined.symm.trans prepares.defined
      cases tabled.symm.trans prepares.tabled
      refine ⟨_, _, prepares, fun failure again => ?_, fun slots answered => ?_⟩
      · cases asked.symm.trans again
        rfl
      · rw [asked] at answered
        cases answered
    | @recordRefused _ _ _ slots _ _ prepares refused =>
      obtain ⟨finish, placed⟩ := prepares.exists_placed slots
      rw [placed] at refused
      cases refused

/-! ## Main result -/

/-- Generating an adapter succeeds for an interface only, and with overrides for methods it declares
itself. Then its record holds the merged method table, and the virtual table of the root class
follows it. -/
theorem adapterRecord_of_generateAdapter {sorted : List ClassId}
    (accepted : generator.catalog.sortClasses = .ok sorted) {global : GlobalId} {after : Assembly}
    (generated : generator.generateAdapter interface overrides before = .ok global after) :
    generator.catalog.IsInterface interface ∧
      (∀ override ∈ overrides, generator.catalog.DeclaredOn interface override) ∧
      ∃ rootTable members methods slots record,
        generator.catalog.methodTable ClassId.root = .ok rootTable ∧
        generator.catalog.interfaceMembers interface = .ok members ∧
        generator.catalog.virtualTable ClassId.root = .ok slots ∧
        generator.catalog.AdapterTable overrides rootTable members methods ∧
        after.HoldsAdapter generator.target interface methods slots global record := by
  have graph := Catalog.soundGraph_of_sortClasses accepted
  have order := Catalog.classOrder_of_sortClasses accepted
  have ending := generator.adapterEnding interface overrides before
  rw [generated] at ending
  cases ending with
  | generated run =>
    have isInterface : generator.catalog.IsInterface interface :=
      ⟨_, run.defined, run.isInterface⟩
    obtain ⟨declared, rootTable, members, rootTabled, answered, table⟩ :=
      Catalog.exists_adapterTable graph order isInterface run.tabled
    exact ⟨isInterface, declared, rootTable, members, _, _, _, rootTabled, answered,
      run.dispatched, table, run.holdsAdapter⟩

def callbackGenerator : Generator := ⟨Catalog.callback, .iphone⟩

theorem callback_adapterRecord :
    ∃ before global after rootTable members methods slots record,
      callbackGenerator.declareAll [ClassId.root, ⟨1⟩, ⟨2⟩] .empty = .ok () before ∧
      callbackGenerator.generateAdapter ⟨2⟩ Catalog.callbackOverrides before = .ok global after ∧
      Catalog.callback.AdapterTable Catalog.callbackOverrides rootTable members methods ∧
      after.HoldsAdapter .iphone ⟨2⟩ methods slots global record := by
  have accepted : callbackGenerator.catalog.sortClasses = .ok [ClassId.root, ⟨1⟩, ⟨2⟩] := by
    decide +kernel
  have defined : callbackGenerator.catalog.definition? ⟨2⟩ = some _ := rfl
  have dispatched : callbackGenerator.catalog.virtualTable ClassId.root =
      .ok [⟨"toString()", ⟨ClassId.root, 0⟩, some ⟨1⟩⟩] := rfl
  have succeeds :
      (callbackGenerator.declareAll [ClassId.root, ⟨1⟩, ⟨2⟩]).succeeds .empty = true := by
    decide +kernel
  obtain ⟨_, before, declared⟩ := Build.exists_eq_ok succeeds
  have entered := (allDeclared_of_declareAll declared).entered
  have hasInterface : before.registry.Has ⟨2⟩ := (entered ⟨2⟩).mpr (by simp)
  have hasRoot : before.registry.Has ClassId.root := (entered ClassId.root).mpr (by simp)
  obtain ⟨parts, prepared, _, _, ends⟩ :=
    exists_adapterPrepared defined rfl Catalog.callback_adapterMethods hasInterface hasRoot
  obtain ⟨finish, generated⟩ := ends _ dispatched
  obtain ⟨_, _, rootTable, members, methods, slots, record, _, _, _, table, holds⟩ :=
    adapterRecord_of_generateAdapter accepted generated
  exact ⟨before, _, _, rootTable, members, methods, slots, record, declared, generated, table,
    holds⟩

end Generator

end TypeRecords
