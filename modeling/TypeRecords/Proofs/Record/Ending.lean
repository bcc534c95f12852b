import TypeRecords.Proofs.Record.Generation

/-!
How generating a record ends.

Owns the one statement about `generateRecord` from which all others follow. The step ends with a
record, and then `RecordRun` lists what was asked and placed for it. Or it stops, and then
`RecordStop` says at which point and what had been placed by then. The registry changes in the
first case only. Proofs about records never unfold the step.
-/

namespace TypeRecords

namespace Build

variable {α β : Type} {before : Assembly} {motive : EStateM.Result Failure Assembly β → Prop}

/-! ## What holds however a step ends -/

theorem bind_ends {first : Build α} {next : α → Build β}
    (stops : ∀ failure after, first before = .error failure after → motive (.error failure after))
    (continues : ∀ answer middle, first before = .ok answer middle → motive (next answer middle)) :
    motive ((first >>= next) before) := by
  show motive (EStateM.bind first next before)
  unfold EStateM.bind
  cases ended : first before with
  | error failure after => exact stops failure after ended
  | ok answer middle => exact continues answer middle ended

theorem ask_ends {answer : Except Failure α} {next : α → Build β}
    (stops : ∀ failure, answer = .error failure → motive (.error failure before))
    (continues : ∀ value, answer = .ok value → motive (next value before)) :
    motive ((ask answer >>= next) before) := by
  refine bind_ends (fun failure after failed => ?_) fun value middle answered => ?_
  · obtain ⟨refused, rfl⟩ := ask_eq_error.mp failed
    exact stops failure refused
  · obtain ⟨given, rfl⟩ := ask_eq_ok.mp answered
    exact continues value given

theorem askChecked_ends {answer : Except Fault α} {next : α → Build β}
    (stops : ∀ fault, answer = .error fault → motive (.error (.fault fault) before))
    (continues : ∀ value, answer = .ok value → motive (next value before)) :
    motive ((askChecked answer >>= next) before) := by
  refine bind_ends (fun failure after failed => ?_) fun value middle answered => ?_
  · obtain ⟨fault, refused, rfl, rfl⟩ := askChecked_eq_error.mp failed
    exact stops fault refused
  · obtain ⟨given, rfl⟩ := askChecked_eq_ok.mp answered
    exact continues value given

theorem edit_ends {action : Segment.Edit α} {next : α → Build β}
    (stops : ∀ fault, action before.segment = .error fault →
      motive (.error (.fault fault) before))
    (continues : ∀ value segment, action before.segment = .ok (value, segment) →
      motive (next value { before with segment })) :
    motive ((edit action >>= next) before) := by
  refine bind_ends (fun failure after failed => ?_) fun value middle edited => ?_
  · obtain ⟨fault, refused, rfl, rfl⟩ := edit_eq_error.mp failed
    exact stops fault refused
  · obtain ⟨segment, changed, rfl⟩ := edit_eq_ok.mp edited
    exact continues value segment changed

/-- Placing an array always succeeds. -/
theorem placeArray_ends {name : String} {element : DataType} {items : List Constant}
    {next : GlobalId → Build β}
    (continues : ∀ array segment,
      Segment.placeArray name element items before.segment = .ok (array, segment) →
        motive (next array { before with segment })) :
    motive ((edit (Segment.placeArray name element items) >>= next) before) := by
  refine edit_ends (fun fault failed => ?_) continues
  rw [Segment.placeArray_eq] at failed
  cases failed

end Build

namespace Generator

open Build

variable {generator : Generator} {id : ClassId} {before after : Assembly}

/-! ## A record that is generated -/

/-- What generating a record does before the record itself is placed: the questions are answered,
and the parts are placed. -/
structure RecordPrepared (generator : Generator) (id : ClassId) (entry : RecordEntry)
    (facts : RecordFacts) (parts : RecordParts) (prepared : Segment) (before : Assembly) :
    Prop where
  answers : generator.Answers id facts
  entered : before.registry.find? id = some entry
  extension : parts.extension = entry.extension
  supertype : Option.Rel before.registry.RecordAt facts.supertype parts.supertype
  interfaces : List.Forall₂ before.registry.RecordAt facts.interfaces parts.interfaces
  partsPlaced : PartsPlaced facts parts before.segment prepared

/-- What generating a record does: the parts are placed, then the record of the entry, and then its
address where that is asked for. -/
structure RecordRun (generator : Generator) (id : ClassId) (entry : RecordEntry)
    (facts : RecordFacts) (parts : RecordParts) (exported : Option GlobalId)
    (prepared placed : Segment) (before after : Assembly) : Prop
    extends generator.RecordPrepared id entry facts parts prepared before where
  isNew : entry.record = none
  recordPlaced : Segment.placeRecord entry.global (parts.record facts) facts.virtualTable prepared =
    .ok ((), placed)
  addressExported : Exported facts.definition entry.global exported placed after.segment
  registered : after.registry = before.registry.withEntry id
    { entry with record := some (parts.record facts), exportGlobal := exported }

/-! ## A record that is not -/

/-- Why a question about a class has no answer, with the earlier answers it comes after. -/
inductive Unanswered (generator : Generator) (id : ClassId) : Failure → Prop
  | definition {fault : Fault} (asked : generator.catalog.definition id = .error fault) :
      Unanswered generator id (.fault fault)
  | layout {failure : Failure}
      (asked : generator.catalog.instanceLayout generator.target id = .error failure) :
      Unanswered generator id failure
  | supertype {fault : Fault} (asked : generator.catalog.supertype? id = .error fault) :
      Unanswered generator id (.fault fault)
  | interfaces {fault : Fault} (asked : generator.catalog.interfaces id = .error fault) :
      Unanswered generator id (.fault fault)
  | methods {failure : Failure} {layout : InstanceLayout}
      (laidOut : generator.catalog.instanceLayout generator.target id = .ok layout)
      (asked : generator.catalog.methodTable id = .error failure) :
      Unanswered generator id failure
  | reflected {fault : Fault} (asked : generator.catalog.reflectedName id = .error fault) :
      Unanswered generator id (.fault fault)
  | virtualTable {failure : Failure} {definition : ClassDefinition} {layout : InstanceLayout}
      {methods : List MethodRecord}
      (defined : generator.catalog.definition? id = some definition)
      (laidOut : generator.catalog.instanceLayout generator.target id = .ok layout)
      (tabled : generator.catalog.methodTable id = .ok methods)
      (asked : generator.recordVirtualTable id definition = .error failure) :
      Unanswered generator id failure

theorem Answers.not_unanswered {facts : RecordFacts} (answers : generator.Answers id facts)
    {failure : Failure} : ¬ generator.Unanswered id failure := by
  intro why
  cases why with
  | definition asked =>
    rw [Catalog.definition_eq_ok.mpr answers.definition] at asked
    cases asked
  | layout asked => cases answers.layout.symm.trans asked
  | supertype asked => cases answers.supertype.symm.trans asked
  | interfaces asked => cases answers.interfaces.symm.trans asked
  | methods _ asked => cases answers.methods.symm.trans asked
  | reflected asked => cases answers.reflected.symm.trans asked
  | virtualTable defined _ _ asked =>
    cases defined.symm.trans answers.definition
    cases answers.virtualTable.symm.trans asked

/-- What the names of the arrays of a record begin with. -/
def tablePrefixes : List String := [interfacesPrefix, tracedPrefix, fieldsPrefix, methodsPrefix]

/-- One array or string of a record that is placed. -/
inductive PartPlaced : Segment → Segment → Prop
  | array {start finish : Segment} {table name : String} {element : DataType}
      {items : List Constant} {array : GlobalId} (isTable : table ∈ tablePrefixes)
      (placed : Segment.placeArray (table ++ name) element items start = .ok (array, finish)) :
      PartPlaced start finish
  | text {start finish : Segment} {text : String} {place : GlobalId}
      (interned : Segment.internString text start = .ok (place, finish)) :
      PartPlaced start finish

/-- Some parts of a record that are placed one after the other. -/
abbrev PartsBegun : Segment → Segment → Prop := Relation.ReflTransGen PartPlaced

theorem NamePartPlaced.begun {text : Option String} {place : Option GlobalId}
    {start finish : Segment} (run : NamePartPlaced text place start finish) :
    PartsBegun start finish := by
  cases run with
  | absent => exact .refl
  | placed interned => exact .single (.text interned)

theorem PartsPlaced.begun {facts : RecordFacts} {parts : RecordParts} {start finish : Segment}
    (run : PartsPlaced facts parts start finish) : PartsBegun start finish := by
  cases run with
  | inOrder interfaces traced fields methods package relative =>
    have toInterfaces :=
      Relation.ReflTransGen.single (PartPlaced.array (by decide) interfaces)
    have toMethods := ((toInterfaces.tail (.array (by decide) traced)).tail
      (.array (by decide) fields)).tail (.array (by decide) methods)
    exact (toMethods.trans package.begun).trans relative.begun

/-- How generating a record stops, with the segment that remains. -/
inductive RecordStop (generator : Generator) (id : ClassId) (before : Assembly) :
    Failure → Segment → Prop
  | unanswered {failure : Failure} {segment : Segment} (why : generator.Unanswered id failure)
      (begun : PartsBegun before.segment segment) : RecordStop generator id before failure segment
  /-- The class itself, its supertype or an interface of it has no entry. -/
  | undeclared {other : ClassId} {segment : Segment} (absent : before.registry.find? other = none)
      (needed : other = id ∨ generator.catalog.supertype? id = .ok (some other) ∨
        ∃ interfaces, generator.catalog.interfaces id = .ok interfaces ∧ other ∈ interfaces)
      (begun : PartsBegun before.segment segment) :
      RecordStop generator id before (.fault (.recordNotDeclared other)) segment
  | textRefused {text : String} {fault : Fault} {segment : Segment}
      (refused : Segment.internString text segment = .error fault)
      (begun : PartsBegun before.segment segment) :
      RecordStop generator id before (.fault fault) segment
  | recordRefused {entry : RecordEntry} {facts : RecordFacts} {parts : RecordParts}
      {fault : Fault} {prepared : Segment}
      (prepares : generator.RecordPrepared id entry facts parts prepared before)
      (refused : Segment.placeRecord entry.global (parts.record facts) facts.virtualTable prepared =
        .error fault) :
      RecordStop generator id before (.fault fault) prepared
  /-- The record is placed by then, and remains. -/
  | symbolTaken {entry : RecordEntry} {facts : RecordFacts} {parts : RecordParts}
      {prepared placed : Segment} {symbol : String} {existing : GlobalId}
      (prepares : generator.RecordPrepared id entry facts parts prepared before)
      (recordPlaced : Segment.placeRecord entry.global (parts.record facts) facts.virtualTable
        prepared = .ok ((), placed))
      (asked : facts.definition.exportSymbol = some symbol)
      (taken : placed.findByName? symbol = some existing) :
      RecordStop generator id before
        (.reported (.duplicateExport facts.definition.name symbol)) placed
  | entryRefused {entry : RecordEntry} {facts : RecordFacts} {parts : RecordParts}
      {exported : Option GlobalId} {fault : Fault} {prepared placed segment : Segment}
      (prepares : generator.RecordPrepared id entry facts parts prepared before)
      (recordPlaced : Segment.placeRecord entry.global (parts.record facts) facts.virtualTable
        prepared = .ok ((), placed))
      (addressExported : Exported facts.definition entry.global exported placed segment)
      (refused : before.registry.complete id (parts.record facts) exported = .error fault) :
      RecordStop generator id before (.fault fault) segment

/-! ## Either way -/

/-- How generating a record ends. -/
inductive RecordEnding (generator : Generator) (id : ClassId) (before : Assembly) :
    EStateM.Result Failure Assembly GlobalId → Prop
  | generated {entry : RecordEntry} {facts : RecordFacts} {parts : RecordParts}
      {exported : Option GlobalId} {prepared placed : Segment} {after : Assembly}
      (run : generator.RecordRun id entry facts parts exported prepared placed before after) :
      RecordEnding generator id before (.ok entry.global after)
  | stopped {failure : Failure} {segment : Segment}
      (stop : generator.RecordStop id before failure segment) :
      RecordEnding generator id before (.error failure { before with segment })

/-- The last part of generating a record, once its parts are placed. -/
theorem recordEnding_of_prepared {entry : RecordEntry} {facts : RecordFacts} {parts : RecordParts}
    {prepared : Segment}
    (prepares : generator.RecordPrepared id entry facts parts prepared before) :
    generator.RecordEnding id before ((do
      Build.edit (Segment.placeRecord entry.global (parts.record facts) facts.virtualTable)
      let exported ← generator.exportRecord facts.definition entry.global
      Build.register fun registry => registry.complete id (parts.record facts) exported
      return entry.global : Build GlobalId) { before with segment := prepared }) := by
  refine edit_ends (fun fault refused => .stopped (.recordRefused prepares refused))
    fun _ placed recordPlaced => ?_
  refine bind_ends (fun failure stopped failed => ?_) fun exported middle exporting => ?_
  · obtain ⟨symbol, existing, asked, taken, rfl, rfl⟩ := exportRecord_eq_error failed
    exact .stopped (.symbolTaken prepares recordPlaced asked taken)
  · obtain ⟨segment, addressExported, rfl⟩ := exportRecord_eq_ok exporting
    refine bind_ends (fun failure stopped failed => ?_) fun _ finished registering => ?_
    · obtain ⟨fault, refused, rfl, rfl⟩ := register_eq_error.mp failed
      exact .stopped (.entryRefused prepares recordPlaced addressExported refused)
    · obtain ⟨registry, completed, rfl⟩ := register_eq_ok.mp registering
      obtain ⟨present, found, isNew, rfl⟩ := Registry.complete_eq_ok.mp completed
      cases found.symm.trans prepares.entered
      exact .generated ⟨prepares, isNew, recordPlaced, addressExported, rfl⟩

theorem recordEnding (generator : Generator) (id : ClassId) (before : Assembly) :
    generator.RecordEnding id before (generator.generateRecord id before) := by
  unfold generateRecord
  refine askChecked_ends (fun _ asked => .stopped (.unanswered (.definition asked) .refl))
    fun definition asked => ?_
  have defined := Catalog.definition_eq_ok.mp asked
  refine ask_ends (fun _ asked => .stopped (.unanswered (.layout asked) .refl))
    fun layout laidOut => ?_
  refine askChecked_ends (fun _ asked => .stopped (.unanswered (.supertype asked) .refl))
    fun supertype above => ?_
  refine bind_ends (fun _ _ failed => ?_) fun supertypeGlobal _ located => ?_
  · obtain ⟨other, rfl, absent, rfl, rfl⟩ := recordGlobalOfSupertype_eq_error failed
    exact .stopped (.undeclared absent (.inr (.inl above)) .refl)
  obtain ⟨supertypeEntered, rfl⟩ := recordGlobalOfSupertype_eq_ok.mp located
  refine askChecked_ends (fun _ asked => .stopped (.unanswered (.interfaces asked) .refl))
    fun interfaces implemented => ?_
  refine bind_ends (fun _ _ failed => ?_) fun interfaceGlobals _ located => ?_
  · obtain ⟨other, listed, absent, rfl, rfl⟩ := recordGlobals_eq_error failed
    exact .stopped (.undeclared absent (.inr (.inr ⟨interfaces, implemented, listed⟩)) .refl)
  obtain ⟨interfacesEntered, rfl⟩ := recordGlobals_eq_ok.mp located
  -- From here on a stop leaves some of the parts behind.
  refine placeArray_ends fun interfaceArray withInterfaces placedInterfaces => ?_
  refine placeArray_ends fun tracedArray withTraced placedTraced => ?_
  refine placeArray_ends fun fieldArray withFields placedFields => ?_
  have toFields : PartsBegun before.segment withFields :=
    ((Relation.ReflTransGen.single (PartPlaced.array (by decide) placedInterfaces)).tail
      (.array (by decide) placedTraced)).tail (.array (by decide) placedFields)
  refine ask_ends (fun _ asked => .stopped (.unanswered (.methods laidOut asked) toFields))
    fun methods tabled => ?_
  refine placeArray_ends fun methodArray withMethods placedMethods => ?_
  have toMethods := toFields.tail (.array (by decide) placedMethods)
  refine askChecked_ends
    (fun _ asked => .stopped (.unanswered (.reflected asked) toMethods)) fun reflected named => ?_
  refine bind_ends (fun _ _ failed => ?_) fun packageName _ placing => ?_
  · obtain ⟨text, fault, refused, rfl, rfl⟩ := placeNamePart_eq_error failed
    exact .stopped (.textRefused refused toMethods)
  obtain ⟨withPackage, placedPackage, rfl⟩ := placeNamePart_eq_ok placing
  have toPackage := toMethods.trans placedPackage.begun
  refine bind_ends (fun _ _ failed => ?_) fun relativeName _ placing => ?_
  · obtain ⟨text, fault, refused, rfl, rfl⟩ := placeNamePart_eq_error failed
    exact .stopped (.textRefused refused toPackage)
  obtain ⟨prepared, placedRelative, rfl⟩ := placeNamePart_eq_ok placing
  have toPrepared := toPackage.trans placedRelative.begun
  rw [get_bind]
  refine ask_ends (fun _ asked =>
    .stopped (.unanswered (.virtualTable defined laidOut tabled asked) toPrepared))
    fun virtualTable dispatched => ?_
  refine bind_ends (fun _ _ failed => ?_) fun _ _ located => ?_
  · obtain ⟨absent, rfl, rfl⟩ := recordGlobal_eq_error failed
    exact .stopped (.undeclared absent (.inl rfl) toPrepared)
  obtain ⟨⟨entry, entered, rfl⟩, rfl⟩ := recordGlobal_eq_ok.mp located
  have sameExtension : (before.registry.find? id).bind RecordEntry.extension = entry.extension := by
    rw [entered]
    rfl
  rw [sameExtension]
  let facts : RecordFacts :=
    ⟨definition, layout, supertype, interfaces, methods, reflected, virtualTable⟩
  let parts : RecordParts := ⟨supertypeGlobal, interfaceGlobals, interfaceArray, tracedArray,
    fieldArray, methodArray, packageName, relativeName, entry.extension⟩
  have prepares : generator.RecordPrepared id entry facts parts prepared before := {
    answers := ⟨defined, laidOut, above, implemented, tabled, named, dispatched⟩
    entered := entered
    extension := rfl
    supertype := supertypeEntered
    interfaces := interfacesEntered
    partsPlaced := .inOrder placedInterfaces placedTraced placedFields placedMethods placedPackage
      placedRelative }
  -- The ending is stated before it is compared with the step, so that the facts are known then.
  have ending := recordEnding_of_prepared prepares
  exact ending

theorem exists_recordRun {global : GlobalId}
    (ran : generator.generateRecord id before = .ok global after) :
    ∃ entry facts parts exported prepared placed,
      generator.RecordRun id entry facts parts exported prepared placed before after := by
  have ending := generator.recordEnding id before
  rw [ran] at ending
  cases ending with
  | generated run => exact ⟨_, _, _, _, _, _, run⟩

theorem exists_recordStop {failure : Failure}
    (failed : generator.generateRecord id before = .error failure after) :
    ∃ segment, generator.RecordStop id before failure segment ∧
      { before with segment } = after := by
  have ending := generator.recordEnding id before
  rw [failed] at ending
  cases ending with
  | stopped stop => exact ⟨_, stop, rfl⟩

end Generator

end TypeRecords
