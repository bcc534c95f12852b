import TypeRecords.Proofs.Class.Walk
import TypeRecords.Proofs.Segment.Names

/-!
The parts of a build step.

Owns the inversion of what build steps are put together from, for success and for failure, and of
the smaller steps: what each asked, what it placed and what it entered in the registry. The step
that declares a record is taken apart here too.
-/

namespace TypeRecords

namespace Build

variable {α β : Type} {before after : Assembly}

/-! ## Steps put together -/

theorem bind_eq_ok {first : Build α} {next : α → Build β} {value : β} :
    (first >>= next) before = .ok value after ↔
      ∃ answer middle, first before = .ok answer middle ∧ next answer middle = .ok value after := by
  rw [show (first >>= next) before = EStateM.bind first next before from rfl, EStateM.bind]
  cases first before <;> simp

/-- Whether a step succeeds, which can be computed. -/
def succeeds (step : Build α) (before : Assembly) : Bool :=
  match step before with
  | .ok _ _ => true
  | .error _ _ => false

theorem exists_eq_ok {step : Build α} (succeeds : step.succeeds before = true) :
    ∃ value after, step before = .ok value after := by
  unfold Build.succeeds at succeeds
  cases ran : step before with
  | ok value after => exact ⟨value, after, rfl⟩
  | error failure after =>
    rw [ran] at succeeds
    cases succeeds

theorem pure_eq_ok {first value : α} :
    (pure first : Build α) before = .ok value after ↔ first = value ∧ before = after := by
  show EStateM.Result.ok first before = .ok value after ↔ _
  rw [EStateM.Result.ok.injEq]

theorem get_bind {next : Assembly → Build β} :
    (get >>= next : Build β) before = next before before := rfl

theorem map_eq_ok {step : Build α} {change : α → β} {value : β} :
    (change <$> step) before = .ok value after ↔
      ∃ answer, step before = .ok answer after ∧ change answer = value := by
  rw [show (change <$> step) before = EStateM.map change step before from rfl, EStateM.map]
  cases step before <;> simp [and_comm]

theorem throw_ne_ok {failure : Failure} {value : α} :
    (throw failure : Build α) before ≠ .ok value after := by
  show EStateM.Result.error failure before ≠ .ok value after
  simp

theorem edit_eq_ok {action : Segment.Edit α} {value : α} :
    edit action before = .ok value after ↔
      ∃ segment, action before.segment = .ok (value, segment) ∧
        { before with segment } = after := by
  unfold edit
  cases action before.segment with
  | error fault => simp
  | ok result =>
    obtain ⟨answer, segment⟩ := result
    simp

theorem register_eq_ok {change : Registry → Except Fault Registry} {value : Unit} :
    register change before = .ok value after ↔
      ∃ registry, change before.registry = .ok registry ∧ { before with registry } = after := by
  unfold register
  cases change before.registry <;> simp

theorem ask_eq_ok {answer : Except Failure α} {value : α} :
    ask answer before = .ok value after ↔ answer = .ok value ∧ before = after := by
  unfold ask
  cases answer <;> simp

theorem askChecked_eq_ok {answer : Except Fault α} {value : α} :
    askChecked answer before = .ok value after ↔ answer = .ok value ∧ before = after := by
  rw [askChecked, ask_eq_ok, Outcome.mapError_eq_ok]

/-! ### Failures -/

theorem bind_eq_error {first : Build α} {next : α → Build β} {failure : Failure} :
    (first >>= next) before = .error failure after ↔
      first before = .error failure after ∨
        ∃ answer middle, first before = .ok answer middle ∧
          next answer middle = .error failure after := by
  rw [show (first >>= next) before = EStateM.bind first next before from rfl, EStateM.bind]
  cases first before <;> simp

theorem pure_ne_error {value : α} {failure : Failure} :
    (pure value : Build α) before ≠ .error failure after := by
  show EStateM.Result.ok value before ≠ .error failure after
  simp

theorem map_eq_error {step : Build α} {change : α → β} {failure : Failure} :
    (change <$> step) before = .error failure after ↔ step before = .error failure after := by
  rw [show (change <$> step) before = EStateM.map change step before from rfl, EStateM.map]
  cases step before <;> simp

theorem throw_eq_error {thrown failure : Failure} :
    (throw thrown : Build α) before = .error failure after ↔ thrown = failure ∧ before = after := by
  show EStateM.Result.error thrown before = .error failure after ↔ _
  rw [EStateM.Result.error.injEq]

theorem edit_eq_error {action : Segment.Edit α} {failure : Failure} :
    edit action before = .error failure after ↔
      ∃ fault, action before.segment = .error fault ∧ .fault fault = failure ∧ before = after := by
  unfold edit
  cases action before.segment <;> simp

theorem register_eq_error {change : Registry → Except Fault Registry} {failure : Failure} :
    register change before = .error failure after ↔
      ∃ fault, change before.registry = .error fault ∧ .fault fault = failure ∧
        before = after := by
  unfold register
  cases change before.registry <;> simp

theorem ask_eq_error {answer : Except Failure α} {failure : Failure} :
    ask answer before = .error failure after ↔ answer = .error failure ∧ before = after := by
  unfold ask
  cases answer <;> simp

theorem askChecked_eq_error {answer : Except Fault α} {failure : Failure} :
    askChecked answer before = .error failure after ↔
      ∃ fault, answer = .error fault ∧ .fault fault = failure ∧ before = after := by
  rw [askChecked, ask_eq_error]
  cases answer <;> simp [Except.mapError]

/-! ### Lists of steps -/

theorem discard_eq_ok {step : Build α} {value : Unit} :
    (discard step) before = .ok value after ↔ ∃ answer, step before = .ok answer after := by
  show (Function.const α () <$> step) before = .ok value after ↔ _
  rw [map_eq_ok]
  simp

theorem discard_eq_error {step : Build α} {failure : Failure} :
    (discard step) before = .error failure after ↔ step before = .error failure after := by
  show (Function.const α () <$> step) before = .error failure after ↔ _
  rw [map_eq_error]

/-- Where the steps for the items of a list stop, the earlier ones succeeded. -/
theorem forM_eq_error {items : List α} {step : α → Build Unit} {failure : Failure}
    (stopped : items.forM step before = .error failure after) :
    ∃ done next rest middle, items = done ++ next :: rest ∧
      done.forM step before = .ok () middle ∧ step next middle = .error failure after := by
  induction items generalizing before with
  | nil => exact absurd stopped pure_ne_error
  | cons first rest inductionHypothesis =>
    rcases bind_eq_error.mp stopped with failed | ⟨_, middle, stepped, later⟩
    · exact ⟨[], first, rest, before, rfl, rfl, failed⟩
    · obtain ⟨done, next, remaining, reached, rfl, ran, failed⟩ := inductionHypothesis later
      exact ⟨first :: done, next, remaining, reached, rfl,
        bind_eq_ok.mpr ⟨(), middle, stepped, ran⟩, failed⟩

/-- What the steps for the items of a list preserve, one after the other, holds after all of them.
The property may speak about the items already done. -/
theorem forM_preserves {items : List α} {step : α → Build Unit} {value : Unit}
    (ran : items.forM step before = .ok value after) (holds : List α → Assembly → Prop)
    (start : holds [] before)
    (each : ∀ done next rest, items = done ++ next :: rest → ∀ {middle reached},
      holds done middle → step next middle = .ok () reached → holds (done ++ [next]) reached) :
    holds items after := by
  have fromDone : ∀ (rest done : List α) (middle : Assembly), items = done ++ rest →
      holds done middle → rest.forM step middle = .ok value after → holds items after := by
    intro rest
    induction rest with
    | nil =>
      intro done middle whole reached finished
      obtain ⟨_, rfl⟩ := pure_eq_ok.mp finished
      rw [whole, List.append_nil]
      exact reached
    | cons next rest inductionHypothesis =>
      intro done middle whole reached continued
      obtain ⟨_, later, stepped, remaining⟩ := bind_eq_ok.mp continued
      refine inductionHypothesis (done ++ [next]) later ?_
        (each done next rest whole reached stepped) remaining
      rw [whole, List.append_assoc]
      rfl
  exact fromDone items [] before rfl start ran

end Build

/-! ## The registry -/

namespace Registry

variable {registry later : Registry} {id other : ClassId}

/-- The registry with the entry of a class replaced or added. -/
def withEntry (registry : Registry) (id : ClassId) (entry : RecordEntry) : Registry :=
  ⟨registry.entries.insert id entry⟩

/-- Whether a class is entered with that record global. -/
def RecordAt (registry : Registry) (id : ClassId) (global : GlobalId) : Prop :=
  ∃ entry, registry.find? id = some entry ∧ entry.global = global

/-- Whether a class is entered. -/
def Has (registry : Registry) (id : ClassId) : Prop := ∃ entry, registry.find? id = some entry

theorem find?_withEntry (registry : Registry) (id other : ClassId) (entry : RecordEntry) :
    (registry.withEntry id entry).find? other =
      if other = id then some entry else registry.find? other :=
  OrderedMap.find?_insert _ _ _ _

theorem find?_withEntry_eq_some {added entry : RecordEntry} :
    (registry.withEntry id added).find? other = some entry ↔
      (other = id ∧ added = entry) ∨ (other ≠ id ∧ registry.find? other = some entry) := by
  rw [find?_withEntry]
  by_cases same : other = id <;> simp [same]

/-- Whether no two classes are entered with the same record global. -/
def GlobalsDistinct (registry : Registry) : Prop :=
  ∀ first second firstEntry secondEntry, registry.find? first = some firstEntry →
    registry.find? second = some secondEntry → firstEntry.global = secondEntry.global →
      first = second

theorem GlobalsDistinct.withEntry (distinct : registry.GlobalsDistinct) {added : RecordEntry}
    (apart : ∀ other entry, other ≠ id → registry.find? other = some entry →
      entry.global ≠ added.global) : (registry.withEntry id added).GlobalsDistinct := by
  intro first second firstEntry secondEntry firstEntered secondEntered same
  rcases find?_withEntry_eq_some.mp firstEntered with ⟨rfl, rfl⟩ | ⟨firstApart, firstKnown⟩
  · rcases find?_withEntry_eq_some.mp secondEntered with ⟨rfl, _⟩ | ⟨secondApart, secondKnown⟩
    · rfl
    · exact absurd same.symm (apart second secondEntry secondApart secondKnown)
  · rcases find?_withEntry_eq_some.mp secondEntered with ⟨rfl, rfl⟩ | ⟨_, secondKnown⟩
    · exact absurd same (apart first firstEntry firstApart firstKnown)
    · exact distinct first second firstEntry secondEntry firstKnown secondKnown same

theorem has_withEntry {added : RecordEntry} :
    (registry.withEntry id added).Has other ↔ other = id ∨ registry.Has other := by
  unfold Has
  by_cases same : other = id <;> simp [find?_withEntry, same]

theorem declare_eq_ok {global : GlobalId} {extension : Option GlobalId} :
    registry.declare id global extension = .ok later ↔
      registry.find? id = none ∧ registry.withEntry id ⟨global, extension, none, none⟩ = later := by
  rw [declare, OrderedMap.contains]
  change (if (registry.find? id).isSome = true then _ else _) = _ ↔ _
  cases registry.find? id with
  | none => simp [withEntry]
  | some entry => simp

theorem declare_eq_error {global : GlobalId} {extension : Option GlobalId} {fault : Fault} :
    registry.declare id global extension = .error fault ↔
      ∃ entry, registry.find? id = some entry ∧ .recordDeclaredTwice id = fault := by
  rw [declare, OrderedMap.contains]
  change (if (registry.find? id).isSome = true then _ else _) = _ ↔ _
  cases registry.find? id <;> simp

theorem complete_eq_ok {record : TypeRecord} {exportGlobal : Option GlobalId} :
    registry.complete id record exportGlobal = .ok later ↔
      ∃ entry, registry.find? id = some entry ∧ entry.record = none ∧
        registry.withEntry id { entry with record := some record, exportGlobal } = later := by
  rw [complete]
  cases registry.find? id with
  | none => simp
  | some entry => cases isGenerated : entry.record <;> simp [withEntry, isGenerated]

end Registry

namespace Generator

open Build

variable {generator : Generator} {id : ClassId} {before after : Assembly}

/-! ## Declaring a record -/

/-- The record global of a class while its record is not generated. -/
def declaredGlobal (generator : Generator) (definition : ClassDefinition) : Global where
  name := recordPrefix ++ definition.name.display
  type := TypeRecord.dataType generator.target.hasExtensionRecords
  initial := none
  constant := false
  linkage := .internal

/-- Whether an extension record was placed exactly if the target has them. -/
inductive ExtensionPlaced (generator : Generator) (name : String) :
    Option GlobalId → Segment → Segment → Prop
  | absent (segment : Segment) (lacking : generator.target.hasExtensionRecords = false) :
      ExtensionPlaced generator name none segment segment
  | placed {before after : Segment} {id : GlobalId}
      (having : generator.target.hasExtensionRecords = true)
      (placed : Segment.placeWritable (extensionPrefix ++ name) TypeRecord.extensionType before =
        .ok (id, after)) :
      ExtensionPlaced generator name (some id) before after

theorem placeExtension_eq_ok {name : String} {extension : Option GlobalId}
    (ran : generator.placeExtension name before = .ok extension after) :
    ∃ segment, generator.ExtensionPlaced name extension before.segment segment ∧
      { before with segment } = after := by
  unfold placeExtension at ran
  split at ran
  · rename_i having
    obtain ⟨id, edited, rfl⟩ := map_eq_ok.mp ran
    obtain ⟨segment, placed, rfl⟩ := edit_eq_ok.mp edited
    exact ⟨segment, .placed having placed, rfl⟩
  · rename_i lacking
    obtain ⟨rfl, rfl⟩ := pure_eq_ok.mp ran
    exact ⟨before.segment, .absent _ (by simpa using lacking), rfl⟩

theorem placeExtension_ne_error {name : String} {failure : Failure} :
    generator.placeExtension name before ≠ .error failure after := by
  intro failed
  unfold placeExtension at failed
  split at failed
  · obtain ⟨fault, refused, _⟩ := edit_eq_error.mp (map_eq_error.mp failed)
    rw [Segment.placeWritable_eq] at refused
    cases refused
  · exact pure_ne_error failed

/-- What declaring a record does. -/
structure DeclareRun (generator : Generator) (id : ClassId) (definition : ClassDefinition)
    (extension : Option GlobalId) (before after : Assembly) : Prop where
  defined : generator.catalog.definition? id = some definition
  nameFree : before.segment.names.find? (recordPrefix ++ definition.name.display) = none
  isNew : before.registry.find? id = none
  extensionPlaced : generator.ExtensionPlaced definition.name.display extension
    (before.segment.withGlobal (generator.declaredGlobal definition)) after.segment
  registered : after.registry =
    before.registry.withEntry id ⟨before.segment.nextId, extension, none, none⟩

theorem exists_declareRun {global : GlobalId}
    (ran : generator.declareRecord id before = .ok global after) :
    ∃ definition extension, generator.DeclareRun id definition extension before after := by
  unfold declareRecord at ran
  obtain ⟨definition, _, asked, rest⟩ := bind_eq_ok.mp ran
  obtain ⟨answered, rfl⟩ := askChecked_eq_ok.mp asked
  obtain ⟨_, _, edited, rest⟩ := bind_eq_ok.mp rest
  obtain ⟨_, declared, rfl⟩ := edit_eq_ok.mp edited
  obtain ⟨nameFree, rfl, rfl⟩ := Segment.declare_eq_ok.mp declared
  obtain ⟨extension, _, extending, rest⟩ := bind_eq_ok.mp rest
  obtain ⟨segment, extended, rfl⟩ := placeExtension_eq_ok extending
  obtain ⟨_, _, registering, rest⟩ := bind_eq_ok.mp rest
  obtain ⟨_, entered, rfl⟩ := register_eq_ok.mp registering
  obtain ⟨isNew, rfl⟩ := Registry.declare_eq_ok.mp entered
  obtain ⟨_, rfl⟩ := pure_eq_ok.mp rest
  exact ⟨definition, extension, Catalog.definition_eq_ok.mp answered, nameFree, isNew, extended,
    rfl⟩

/-- Why a record cannot be declared. -/
inductive DeclareStop (generator : Generator) (id : ClassId) (before : Assembly) : Fault → Prop
  | undefined {fault : Fault} (asked : generator.catalog.definition id = .error fault) :
      DeclareStop generator id before fault
  | nameTaken {definition : ClassDefinition} {existing : GlobalId}
      (defined : generator.catalog.definition? id = some definition)
      (taken : before.segment.names.find? (recordPrefix ++ definition.name.display) =
        some existing) :
      DeclareStop generator id before
        (.globalNameTaken (recordPrefix ++ definition.name.display) existing)
  | entered {entry : RecordEntry} (found : before.registry.find? id = some entry) :
      DeclareStop generator id before (.recordDeclaredTwice id)

theorem exists_declareStop {failure : Failure}
    (failed : generator.declareRecord id before = .error failure after) :
    ∃ fault, .fault fault = failure ∧ generator.DeclareStop id before fault := by
  unfold declareRecord at failed
  rcases bind_eq_error.mp failed with refused | ⟨definition, _, asked, failed⟩
  · obtain ⟨fault, unanswered, rfl, _⟩ := askChecked_eq_error.mp refused
    exact ⟨fault, rfl, .undefined unanswered⟩
  obtain ⟨answered, rfl⟩ := askChecked_eq_ok.mp asked
  have defined := Catalog.definition_eq_ok.mp answered
  rcases bind_eq_error.mp failed with refused | ⟨_, _, edited, failed⟩
  · obtain ⟨fault, declaring, rfl, _⟩ := edit_eq_error.mp refused
    obtain ⟨existing, taken, rfl⟩ := Segment.declare_eq_error.mp declaring
    exact ⟨_, rfl, .nameTaken defined taken⟩
  obtain ⟨_, _, rfl⟩ := edit_eq_ok.mp edited
  rcases bind_eq_error.mp failed with refused | ⟨extension, _, extending, failed⟩
  · exact absurd refused placeExtension_ne_error
  obtain ⟨segment, _, rfl⟩ := placeExtension_eq_ok extending
  rcases bind_eq_error.mp failed with refused | ⟨_, _, _, failed⟩
  · obtain ⟨fault, entering, rfl, _⟩ := register_eq_error.mp refused
    obtain ⟨entry, found, rfl⟩ := Registry.declare_eq_error.mp entering
    exact ⟨_, rfl, .entered found⟩
  · exact absurd failed pure_ne_error

end Generator

/-! ## The parts of a record -/

/-- The answers to what is asked about a class when its record is generated. -/
structure RecordFacts where
  definition : ClassDefinition
  layout : InstanceLayout
  supertype : Option ClassId
  interfaces : List ClassId
  methods : List MethodRecord
  reflected : ReflectedName
  virtualTable : Option Constant

/-- The field table of a class. That of an interface is empty. -/
def RecordFacts.fields (facts : RecordFacts) : List FieldRecord :=
  if facts.definition.isInterface then [] else fieldTable facts.definition facts.layout

/-- The globals a record refers to. -/
structure RecordParts where
  supertype : Option GlobalId
  interfaces : List GlobalId
  interfaceArray : GlobalId
  tracedArray : GlobalId
  fieldArray : GlobalId
  methodArray : GlobalId
  packageName : Option GlobalId
  relativeName : Option GlobalId
  extension : Option GlobalId

/-- The record of a class with these answers, which refers to these globals. -/
def RecordParts.record (parts : RecordParts) (facts : RecordFacts) : TypeRecord where
  nameHash := NameHash.of facts.definition.name.display
  instanceSize := facts.layout.size
  supertype := parts.supertype
  tracedOffsets := .placed parts.tracedArray facts.layout.tracedOffsets.length
  interfaces := .placed parts.interfaceArray parts.interfaces.length
  methods := .placed parts.methodArray facts.methods.length
  fields :=
    if facts.definition.isInterface then .notApplicable parts.fieldArray
    else .placed parts.fieldArray facts.fields.length
  packageName := parts.packageName
  relativeName := parts.relativeName
  extension := parts.extension

namespace Generator

open Build

variable {generator : Generator} {id : ClassId} {before after : Assembly}

/-- Whether these are the answers for a class. -/
structure Answers (generator : Generator) (id : ClassId) (facts : RecordFacts) : Prop where
  definition : generator.catalog.definition? id = some facts.definition
  layout : generator.catalog.instanceLayout generator.target id = .ok facts.layout
  supertype : generator.catalog.supertype? id = .ok facts.supertype
  interfaces : generator.catalog.interfaces id = .ok facts.interfaces
  methods : generator.catalog.methodTable id = .ok facts.methods
  reflected : generator.catalog.reflectedName id = .ok facts.reflected
  virtualTable : generator.recordVirtualTable id facts.definition = .ok facts.virtualTable

/-- Whether a part of a reported name was placed exactly if there is one. -/
inductive NamePartPlaced : Option String → Option GlobalId → Segment → Segment → Prop
  | absent (segment : Segment) : NamePartPlaced none none segment segment
  | placed {before after : Segment} {text : String} {id : GlobalId}
      (interned : Segment.internString text before = .ok (id, after)) :
      NamePartPlaced (some text) (some id) before after

theorem placeNamePart_eq_ok {text : Option String} {place : Option GlobalId}
    (ran : placeNamePart text before = .ok place after) :
    ∃ segment, NamePartPlaced text place before.segment segment ∧
      { before with segment } = after := by
  unfold placeNamePart at ran
  split at ran
  · obtain ⟨id, edited, rfl⟩ := map_eq_ok.mp ran
    obtain ⟨segment, interned, rfl⟩ := edit_eq_ok.mp edited
    exact ⟨segment, .placed interned, rfl⟩
  · obtain ⟨rfl, rfl⟩ := pure_eq_ok.mp ran
    exact ⟨before.segment, .absent _, rfl⟩

theorem placeNamePart_eq_error {part : Option String} {failure : Failure}
    (failed : placeNamePart part before = .error failure after) :
    ∃ text fault, Segment.internString text before.segment = .error fault ∧
      .fault fault = failure ∧ before = after := by
  unfold placeNamePart at failed
  split at failed
  · rename_i text
    obtain ⟨fault, refused, sameFailure, sameState⟩ := edit_eq_error.mp (map_eq_error.mp failed)
    exact ⟨text, fault, refused, sameFailure, sameState⟩
  · exact absurd failed pure_ne_error

/-- The edits that place the parts of a record, in order. -/
inductive PartsPlaced (facts : RecordFacts) (parts : RecordParts) : Segment → Segment → Prop
  | inOrder {start withInterfaces withTraced withFields withMethods withPackage finish : Segment}
      (interfaces : Segment.placeArray (interfacesPrefix ++ facts.definition.name.display) .ptr
        (parts.interfaces.map Constant.globalAddress) start =
          .ok (parts.interfaceArray, withInterfaces))
      (traced : Segment.placeArray (tracedPrefix ++ facts.definition.name.display) .i32
        (facts.layout.tracedOffsets.map Constant.i32) withInterfaces =
          .ok (parts.tracedArray, withTraced))
      (fields : Segment.placeArray (fieldsPrefix ++ facts.definition.name.display)
        FieldRecord.dataType (facts.fields.map FieldRecord.constant) withTraced =
          .ok (parts.fieldArray, withFields))
      (methods : Segment.placeArray (methodsPrefix ++ facts.definition.name.display)
        MethodRecord.dataType (facts.methods.map MethodRecord.constant) withFields =
          .ok (parts.methodArray, withMethods))
      (package : NamePartPlaced facts.reflected.package parts.packageName withMethods withPackage)
      (relative : NamePartPlaced facts.reflected.relative parts.relativeName withPackage finish) :
      PartsPlaced facts parts start finish

/-! ## The virtual table -/

theorem lift_eq_ok {α : Type} {result : Except Fault α} {value : α} :
    (liftM result : Except Failure α) = .ok value ↔ result = .ok value :=
  Outcome.mapError_eq_ok

/-- A virtual table has one slot for each virtual slot of the class. -/
theorem virtualTable_eq_ok {catalog : Catalog} {table : List VirtualSlot} :
    catalog.virtualTable id = .ok table ↔
      ∃ entries, catalog.virtualSlots id = .ok entries ∧
        List.Forall₂ (fun entry slot => slot.name = entry.name ∧
          slot.implementation = entry.implementation ∧
          catalog.slotEntryPoint entry.implementation = .ok slot.entryPoint) entries table := by
  unfold Catalog.virtualTable
  rw [Outcome.bind_eq_ok]
  refine exists_congr fun entries => and_congr lift_eq_ok ?_
  have oneSlot : ∀ (entry : DispatchEntry) (slot : VirtualSlot), (do
      let entryPoint ← catalog.slotEntryPoint entry.implementation
      return ⟨entry.name, entry.implementation, entryPoint⟩ : Except Failure VirtualSlot) =
        .ok slot ↔ slot.name = entry.name ∧ slot.implementation = entry.implementation ∧
          catalog.slotEntryPoint entry.implementation = .ok slot.entryPoint := by
    intro entry slot
    rw [Outcome.bind_eq_ok]
    constructor
    · rintro ⟨entryPoint, asked, built⟩
      rw [← Outcome.pure_eq_ok.mp built]
      exact ⟨rfl, rfl, asked⟩
    · rintro ⟨sameName, sameMethod, asked⟩
      refine ⟨slot.entryPoint, asked, ?_⟩
      rw [← sameName, ← sameMethod]
      rfl
  rw [Outcome.mapM_eq_ok]
  exact ⟨fun pairs => pairs.imp fun entry slot => (oneSlot entry slot).mp,
    fun pairs => pairs.imp fun entry slot => (oneSlot entry slot).mpr⟩

theorem recordVirtualTable_eq_ok {definition : ClassDefinition} {virtualTable : Option Constant} :
    generator.recordVirtualTable id definition = .ok virtualTable ↔
      (definition.isAbstract = true ∧ virtualTable = none) ∨
      (definition.isAbstract = false ∧ ∃ slots, generator.catalog.virtualTable id = .ok slots ∧
        virtualTable = if slots.isEmpty then none else some (VirtualSlot.tableConstant slots)) := by
  unfold recordVirtualTable
  cases definition.isAbstract with
  | true =>
    constructor
    · intro answered
      exact .inl ⟨rfl, (Outcome.pure_eq_ok.mp answered).symm⟩
    · rintro (⟨_, rfl⟩ | ⟨isConcrete, _⟩)
      · rfl
      · cases isConcrete
  | false =>
    constructor
    · intro answered
      obtain ⟨slots, dispatched, chosen⟩ := Outcome.bind_eq_ok.mp answered
      exact .inr ⟨rfl, slots, dispatched, (Outcome.pure_eq_ok.mp chosen).symm⟩
    · rintro (⟨isAbstract, _⟩ | ⟨_, slots, dispatched, rfl⟩)
      · cases isAbstract
      · exact Outcome.bind_eq_ok.mpr ⟨slots, dispatched, rfl⟩

/-! ## Record globals and exports -/

theorem recordGlobal_eq_ok {global : GlobalId} :
    recordGlobal id before = .ok global after ↔
      before.registry.RecordAt id global ∧ before = after := by
  unfold recordGlobal
  rw [get_bind]
  cases found : before.registry.find? id with
  | none => simp [Registry.RecordAt, found, throw_ne_ok]
  | some entry => simp [Registry.RecordAt, found, pure_eq_ok]

theorem recordGlobal_eq_error {failure : Failure}
    (failed : recordGlobal id before = .error failure after) :
    before.registry.find? id = none ∧ .fault (.recordNotDeclared id) = failure ∧
      before = after := by
  unfold recordGlobal at failed
  rw [get_bind] at failed
  cases found : before.registry.find? id with
  | some entry =>
    rw [found] at failed
    exact absurd failed pure_ne_error
  | none =>
    rw [found] at failed
    exact ⟨rfl, throw_eq_error.mp failed⟩

theorem recordGlobals_eq_ok {ids : List ClassId} {globals : List GlobalId} :
    ids.mapM recordGlobal before = .ok globals after ↔
      List.Forall₂ before.registry.RecordAt ids globals ∧ before = after := by
  induction ids generalizing globals after with
  | nil =>
    rw [List.mapM_nil, pure_eq_ok]
    simp [eq_comm]
  | cons first rest inductionHypothesis =>
    rw [List.mapM_cons, bind_eq_ok]
    constructor
    · rintro ⟨global, _, located, remaining⟩
      obtain ⟨entered, rfl⟩ := recordGlobal_eq_ok.mp located
      obtain ⟨others, _, restLocated, built⟩ := bind_eq_ok.mp remaining
      obtain ⟨pairs, rfl⟩ := inductionHypothesis.mp restLocated
      obtain ⟨rfl, rfl⟩ := pure_eq_ok.mp built
      exact ⟨.cons entered pairs, rfl⟩
    · rintro ⟨pairs, rfl⟩
      cases pairs with
      | cons entered others =>
        refine ⟨_, _, recordGlobal_eq_ok.mpr ⟨entered, rfl⟩, bind_eq_ok.mpr ⟨_, _, ?_, rfl⟩⟩
        exact inductionHypothesis.mpr ⟨others, rfl⟩

theorem recordGlobals_eq_error {ids : List ClassId} {failure : Failure}
    (failed : ids.mapM recordGlobal before = .error failure after) :
    ∃ other ∈ ids, before.registry.find? other = none ∧
      .fault (.recordNotDeclared other) = failure ∧ before = after := by
  induction ids with
  | nil => exact absurd failed pure_ne_error
  | cons first rest inductionHypothesis =>
    rw [List.mapM_cons] at failed
    rcases bind_eq_error.mp failed with failed | ⟨global, _, located, failed⟩
    · exact ⟨first, by simp, recordGlobal_eq_error failed⟩
    · obtain ⟨_, rfl⟩ := recordGlobal_eq_ok.mp located
      rcases bind_eq_error.mp failed with failed | ⟨_, _, _, failed⟩
      · obtain ⟨other, listed, refused⟩ := inductionHypothesis failed
        exact ⟨other, List.mem_cons_of_mem _ listed, refused⟩
      · exact absurd failed pure_ne_error

theorem recordGlobalOfSupertype_eq_ok {supertype : Option ClassId} {global : Option GlobalId} :
    supertype.mapM recordGlobal before = .ok global after ↔
      Option.Rel before.registry.RecordAt supertype global ∧ before = after := by
  cases supertype with
  | none =>
    show (pure none : Build (Option GlobalId)) before = _ ↔ _
    rw [pure_eq_ok]
    constructor
    · rintro ⟨rfl, rfl⟩
      exact ⟨.none, rfl⟩
    · rintro ⟨related, rfl⟩
      cases related
      exact ⟨rfl, rfl⟩
  | some id =>
    show (some <$> recordGlobal id) before = _ ↔ _
    simp only [map_eq_ok, recordGlobal_eq_ok]
    constructor
    · rintro ⟨found, ⟨entered, rfl⟩, rfl⟩
      exact ⟨.some entered, rfl⟩
    · rintro ⟨related, rfl⟩
      cases related with
      | some entered => exact ⟨_, ⟨entered, rfl⟩, rfl⟩

theorem recordGlobalOfSupertype_eq_error {supertype : Option ClassId} {failure : Failure}
    (failed : supertype.mapM recordGlobal before = .error failure after) :
    ∃ other, supertype = some other ∧ before.registry.find? other = none ∧
      .fault (.recordNotDeclared other) = failure ∧ before = after := by
  cases supertype with
  | none => exact absurd failed pure_ne_error
  | some other =>
    refine ⟨other, rfl, recordGlobal_eq_error ?_⟩
    exact map_eq_error.mp failed

/-- The global that exports the address of a record. -/
def exportedGlobal (symbol : String) (global : GlobalId) : Global :=
  ⟨symbol, .ptr, some (.globalAddress global), true, .exported⟩

/-- Whether the address of a record was exported exactly if its class asks for it. -/
inductive Exported (definition : ClassDefinition) (global : GlobalId) :
    Option GlobalId → Segment → Segment → Prop
  | absent (segment : Segment) (unasked : definition.exportSymbol = none) :
      Exported definition global none segment segment
  | placed {symbol : String} (segment : Segment) (asked : definition.exportSymbol = some symbol)
      (isFree : segment.findByName? symbol = none) (used : List GlobalId) :
      Exported definition global (some segment.nextId) segment
        { segment.withGlobal (exportedGlobal symbol global) with used }

theorem exportRecord_eq_ok {definition : ClassDefinition} {global : GlobalId}
    {exported : Option GlobalId}
    (ran : generator.exportRecord definition global before = .ok exported after) :
    ∃ segment, Exported definition global exported before.segment segment ∧
      { before with segment } = after := by
  rw [exportRecord] at ran
  cases asked : definition.exportSymbol with
  | none =>
    rw [asked] at ran
    obtain ⟨rfl, rfl⟩ := pure_eq_ok.mp ran
    exact ⟨before.segment, .absent _ asked, rfl⟩
  | some symbol =>
    rw [asked] at ran
    obtain ⟨_, _, declaring, rest⟩ := bind_eq_ok.mp ran
    obtain ⟨_, declared, rfl⟩ := edit_eq_ok.mp declaring
    rcases Segment.declareExported_eq_ok.mp declared with
      ⟨_, _, rfl, _⟩ | ⟨isFree, rfl, rfl⟩
    · exact absurd rest throw_ne_ok
    · obtain ⟨_, _, defining, rest⟩ := bind_eq_ok.mp rest
      obtain ⟨_, defined, rfl⟩ := edit_eq_ok.mp defining
      obtain rfl := (Segment.define_withGlobal_eq_ok rfl).mp defined
      obtain ⟨_, _, setting, rest⟩ := bind_eq_ok.mp rest
      obtain ⟨_, set, rfl⟩ := edit_eq_ok.mp setting
      obtain rfl := Segment.setConstant_withGlobal_eq_ok.mp set
      dsimp only at rest
      split at rest
      · obtain ⟨_, _, keeping, rest⟩ := bind_eq_ok.mp rest
        obtain ⟨_, kept, rfl⟩ := edit_eq_ok.mp keeping
        obtain ⟨used, rfl, _⟩ := Segment.addUsed_eq_ok kept
        obtain ⟨rfl, rfl⟩ := pure_eq_ok.mp rest
        exact ⟨_, .placed before.segment asked isFree used, rfl⟩
      · obtain ⟨rfl, rfl⟩ := pure_eq_ok.mp rest
        exact ⟨_, .placed before.segment asked isFree before.segment.used, rfl⟩

/-- Exporting an address fails exactly where another global has the symbol. Once the global of the
symbol is declared, nothing is left to fail. -/
theorem exportRecord_eq_error {definition : ClassDefinition} {global : GlobalId}
    {failure : Failure}
    (failed : generator.exportRecord definition global before = .error failure after) :
    ∃ symbol existing, definition.exportSymbol = some symbol ∧
      before.segment.findByName? symbol = some existing ∧
      .reported (.duplicateExport definition.name symbol) = failure ∧ before = after := by
  rw [exportRecord] at failed
  cases asked : definition.exportSymbol with
  | none =>
    rw [asked] at failed
    exact absurd failed pure_ne_error
  | some symbol =>
    rw [asked] at failed
    rcases bind_eq_error.mp failed with refused | ⟨_, _, declaring, failed⟩
    · obtain ⟨fault, refused, _⟩ := edit_eq_error.mp refused
      exact absurd refused Segment.declareExported_ne_error
    obtain ⟨_, declared, rfl⟩ := edit_eq_ok.mp declaring
    rcases Segment.declareExported_eq_ok.mp declared with
      ⟨existing, taken, rfl, rfl⟩ | ⟨_, rfl, rfl⟩
    · exact ⟨symbol, existing, rfl, taken, throw_eq_error.mp failed⟩
    exfalso
    rcases bind_eq_error.mp failed with refused | ⟨_, _, defining, failed⟩
    · obtain ⟨fault, refused, _⟩ := edit_eq_error.mp refused
      exact Segment.define_withGlobal_ne_error rfl refused
    obtain ⟨_, defined, rfl⟩ := edit_eq_ok.mp defining
    obtain rfl := (Segment.define_withGlobal_eq_ok rfl).mp defined
    rcases bind_eq_error.mp failed with refused | ⟨_, _, setting, failed⟩
    · obtain ⟨fault, refused, _⟩ := edit_eq_error.mp refused
      exact Segment.setConstant_withGlobal_ne_error refused
    obtain ⟨_, set, rfl⟩ := edit_eq_ok.mp setting
    obtain rfl := Segment.setConstant_withGlobal_eq_ok.mp set
    dsimp only at failed
    split at failed
    · rcases bind_eq_error.mp failed with refused | ⟨_, _, _, failed⟩
      · obtain ⟨fault, refused, _⟩ := edit_eq_error.mp refused
        exact absurd refused (Segment.addUsed_ne_error (Segment.get?_withGlobal_nextId _ _))
      · exact absurd failed pure_ne_error
    · exact absurd failed pure_ne_error

end Generator

end TypeRecords
