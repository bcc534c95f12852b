import TypeRecords.Proofs.Record.Consistent
import TypeRecords.Record.Adapter

/-!
How generating an adapter ends.

Owns the one statement about `generateAdapter` from which all others follow: the step ends with a
record of its own, or stops with what it had placed by then. It never changes the registry, and the
segment only grows.
-/

namespace TypeRecords

namespace Generator

open Build

variable {generator : Generator} {interface : ClassId} {overrides : List Override}
  {before : Assembly}

/-- The globals the record of an adapter refers to. -/
structure AdapterParts where
  interfaceGlobal : GlobalId
  interfaceArray : GlobalId
  methodArray : GlobalId
  extension : Option GlobalId
  rootGlobal : GlobalId

/-- The record of an adapter with these methods, which refers to these globals. -/
def AdapterParts.record (parts : AdapterParts) (methods : List MethodRecord) : TypeRecord where
  nameHash := NameHash.of ""
  instanceSize := 0
  supertype := some parts.rootGlobal
  tracedOffsets := .null
  interfaces := .placed parts.interfaceArray 1
  methods := .placed parts.methodArray methods.length
  fields := .null
  packageName := none
  relativeName := none
  extension := parts.extension

/-- What the names of the globals of an adapter end with. -/
def adapterName (definition : ClassDefinition) : String := definition.name.display ++ "$impl"

/-- What is asked and placed before the record of an adapter. -/
structure AdapterPrepared (generator : Generator) (interface : ClassId)
    (overrides : List Override) (definition : ClassDefinition) (methods : List MethodRecord)
    (parts : AdapterParts) (prepared : Segment) (before : Assembly) : Prop where
  defined : generator.catalog.definition? interface = some definition
  isInterface : definition.isInterface = true
  tabled : generator.catalog.adapterMethods interface definition.name overrides = .ok methods
  interfaceAt : before.registry.RecordAt interface parts.interfaceGlobal
  partsPlaced : ∃ withInterfaces withMethods,
    Segment.placeArray (interfacesPrefix ++ adapterName definition) .ptr
      [.globalAddress parts.interfaceGlobal] before.segment =
        .ok (parts.interfaceArray, withInterfaces) ∧
    Segment.placeArray (methodsPrefix ++ adapterName definition) MethodRecord.dataType
      (methods.map MethodRecord.constant) withInterfaces = .ok (parts.methodArray, withMethods) ∧
    generator.ExtensionPlaced (adapterName definition) parts.extension withMethods prepared

/-- The record global of an adapter while it is not defined. -/
def adapterGlobal (definition : ClassDefinition) (parts : AdapterParts) (prepared : Segment) :
    Global where
  name := prepared.unusedName (recordPrefix ++ adapterName definition)
  type := TypeRecord.dataType parts.extension.isSome
  initial := none
  constant := false
  linkage := .internal

/-- What generating an adapter does: its parts are placed, and then its record with the virtual
table of the root class. -/
structure AdapterRun (generator : Generator) (interface : ClassId) (overrides : List Override)
    (definition : ClassDefinition) (methods : List MethodRecord) (parts : AdapterParts)
    (slots : List VirtualSlot) (prepared : Segment) (before : Assembly) (finish : Segment) : Prop
    extends generator.AdapterPrepared interface overrides definition methods parts prepared
      before where
  rootAt : before.registry.RecordAt ClassId.root parts.rootGlobal
  dispatched : generator.catalog.virtualTable ClassId.root = .ok slots
  recordPlaced : Segment.placeRecord prepared.nextId (parts.record methods)
    (some (VirtualSlot.tableConstant slots))
    (prepared.withGlobal (adapterGlobal definition parts prepared)) = .ok ((), finish)

/-- How generating an adapter stops, with the segment that remains. -/
inductive AdapterStop (generator : Generator) (interface : ClassId) (overrides : List Override)
    (before : Assembly) : Failure → Segment → Prop
  | undefined {fault : Fault} (asked : generator.catalog.definition interface = .error fault) :
      AdapterStop generator interface overrides before (.fault fault) before.segment
  | notInterface {definition : ClassDefinition}
      (defined : generator.catalog.definition? interface = some definition)
      (isProper : definition.isInterface = false) :
      AdapterStop generator interface overrides before
        (.reported (.notAnInterface definition.name)) before.segment
  | methods {definition : ClassDefinition} {failure : Failure}
      (defined : generator.catalog.definition? interface = some definition)
      (asked : generator.catalog.adapterMethods interface definition.name overrides =
        .error failure) :
      AdapterStop generator interface overrides before failure before.segment
  | interfaceUndeclared (absent : before.registry.find? interface = none) :
      AdapterStop generator interface overrides before (.fault (.recordNotDeclared interface))
        before.segment
  | rootUndeclared {definition : ClassDefinition} {methods : List MethodRecord}
      {parts : AdapterParts} {prepared : Segment}
      (prepares : generator.AdapterPrepared interface overrides definition methods parts prepared
        before)
      (absent : before.registry.find? ClassId.root = none) :
      AdapterStop generator interface overrides before (.fault (.recordNotDeclared ClassId.root))
        prepared
  | virtualTable {definition : ClassDefinition} {methods : List MethodRecord}
      {parts : AdapterParts} {prepared : Segment} {failure : Failure}
      (prepares : generator.AdapterPrepared interface overrides definition methods parts prepared
        before)
      (asked : generator.catalog.virtualTable ClassId.root = .error failure) :
      AdapterStop generator interface overrides before failure prepared
  | recordRefused {definition : ClassDefinition} {methods : List MethodRecord}
      {parts : AdapterParts} {slots : List VirtualSlot} {prepared : Segment} {fault : Fault}
      (prepares : generator.AdapterPrepared interface overrides definition methods parts prepared
        before)
      (refused : Segment.placeRecord prepared.nextId (parts.record methods)
        (some (VirtualSlot.tableConstant slots))
        (prepared.withGlobal (adapterGlobal definition parts prepared)) = .error fault) :
      AdapterStop generator interface overrides before (.fault fault)
        (prepared.withGlobal (adapterGlobal definition parts prepared))

/-- How generating an adapter ends. -/
inductive AdapterEnding (generator : Generator) (interface : ClassId) (overrides : List Override)
    (before : Assembly) : EStateM.Result Failure Assembly GlobalId → Prop
  | generated {definition : ClassDefinition} {methods : List MethodRecord} {parts : AdapterParts}
      {slots : List VirtualSlot} {prepared finish : Segment}
      (run : generator.AdapterRun interface overrides definition methods parts slots prepared
        before finish) :
      AdapterEnding generator interface overrides before
        (.ok prepared.nextId { before with segment := finish })
  | stopped {failure : Failure} {segment : Segment}
      (stop : generator.AdapterStop interface overrides before failure segment) :
      AdapterEnding generator interface overrides before
        (.error failure { before with segment })

theorem adapterEnding (generator : Generator) (interface : ClassId) (overrides : List Override)
    (before : Assembly) :
    generator.AdapterEnding interface overrides before
      (generator.generateAdapter interface overrides before) := by
  unfold generateAdapter
  refine askChecked_ends (fun _ asked => .stopped (.undefined asked)) fun definition asked => ?_
  have defined := Catalog.definition_eq_ok.mp asked
  cases isInterface : definition.isInterface with
  | false => exact .stopped (.notInterface defined isInterface)
  | true =>
    refine ask_ends (fun _ asked => .stopped (.methods defined asked)) fun methods tabled => ?_
    refine bind_ends (fun _ _ failed => ?_) fun interfaceGlobal _ located => ?_
    · obtain ⟨absent, rfl, rfl⟩ := recordGlobal_eq_error failed
      exact .stopped (.interfaceUndeclared absent)
    obtain ⟨interfaceAt, rfl⟩ := recordGlobal_eq_ok.mp located
    refine placeArray_ends fun interfaceArray withInterfaces placedInterfaces => ?_
    refine placeArray_ends fun methodArray withMethods placedMethods => ?_
    refine bind_ends (fun _ _ failed => ?_) fun extension _ extending => ?_
    · exact absurd failed placeExtension_ne_error
    obtain ⟨prepared, placedExtension, rfl⟩ := placeExtension_eq_ok extending
    have prepares : ∀ rootGlobal, generator.AdapterPrepared interface overrides definition methods
        ⟨interfaceGlobal, interfaceArray, methodArray, extension, rootGlobal⟩ prepared before :=
      fun _ => ⟨defined, isInterface, tabled, interfaceAt, withInterfaces, withMethods,
        placedInterfaces, placedMethods, placedExtension⟩
    refine bind_ends (fun _ _ failed => ?_) fun rootGlobal _ located => ?_
    · obtain ⟨absent, rfl, rfl⟩ := recordGlobal_eq_error failed
      exact .stopped (.rootUndeclared (prepares ⟨0⟩) absent)
    obtain ⟨rootAt, rfl⟩ := recordGlobal_eq_ok.mp located
    refine ask_ends (fun _ asked => .stopped (.virtualTable (prepares rootGlobal) asked))
      fun slots dispatched => ?_
    refine edit_ends (fun _ failed => ?_) fun global declared declaring => ?_
    · rw [Segment.declareFresh_eq] at failed
      cases failed
    obtain ⟨_, rfl, rfl⟩ := Segment.declareFresh_eq_ok.mp declaring
    refine edit_ends (fun _ refused => ?_) fun _ finish recordPlaced => ?_
    · exact .stopped (.recordRefused (prepares rootGlobal) refused)
    · exact .generated ⟨prepares rootGlobal, rootAt, dispatched, recordPlaced⟩

/-! ## Growth -/

section Growth

variable {definition : ClassDefinition} {methods : List MethodRecord} {parts : AdapterParts}
  {slots : List VirtualSlot} {prepared finish : Segment}

theorem AdapterPrepared.growth
    (prepares : generator.AdapterPrepared interface overrides definition methods parts prepared
      before) : Segment.Growth before.segment prepared := by
  obtain ⟨withInterfaces, withMethods, interfaces, methods, extension⟩ := prepares.partsPlaced
  have toMethods := (Segment.growth_placeArray interfaces).1.trans
    (Segment.growth_placeArray methods).1
  exact toMethods.trans extension.growth.1

/-- The record is defined in the step that declares it. -/
theorem AdapterRun.finish_eq
    (run : generator.AdapterRun interface overrides definition methods parts slots prepared before
      finish) :
    prepared.withGlobal (Segment.completedGlobal (adapterGlobal definition parts prepared)
      (Segment.recordInitial (parts.record methods) (some (VirtualSlot.tableConstant slots)))) =
        finish := by
  obtain ⟨_, declared, found, _, changed⟩ := Segment.placeRecord_eq_ok.mp run.recordPlaced
  rw [Segment.get?_withGlobal_nextId] at found
  cases found
  have appended := Segment.withChanged_withGlobal prepared (adapterGlobal definition parts prepared)
    (Segment.completedGlobal (adapterGlobal definition parts prepared) (Segment.recordInitial
      (parts.record methods) (some (VirtualSlot.tableConstant slots)))) rfl
  rw [← changed, appended]

theorem AdapterRun.growth
    (run : generator.AdapterRun interface overrides definition methods parts slots prepared before
      finish) : Segment.Growth before.segment finish := by
  rw [← run.finish_eq]
  exact run.toAdapterPrepared.growth.trans (Segment.growth_withGlobal rfl)

end Growth

/-- Where generating an adapter stops with a reported error, the segment has only grown. -/
theorem AdapterStop.growth {error : RecordError} {segment : Segment}
    (stop : generator.AdapterStop interface overrides before (.reported error) segment) :
    Segment.Growth before.segment segment := by
  cases stop with
  | notInterface | methods => exact .refl _
  | virtualTable prepares _ => exact prepares.growth

end Generator

end TypeRecords
