import TypeRecords.Proofs.Record.Answer
import TypeRecords.Proofs.Record.Consistent

/-!
The type records of a finished module.

Owns the run of a whole build. The first phase declares the records of all classes, and the second
generates them in an order in which the records a class refers to come before its own. So the
invariant of `Assembly.Consistent` holds throughout and nothing waits in the end: the segment is
closed, and each record describes its class.
-/

namespace TypeRecords

namespace Generator

open Assembly

variable {generator : Generator} {classes : List ClassId} {declared finished : Assembly}

/-! ## The first phase -/

/-- Declares the records of classes one after the other. -/
def declareAll (generator : Generator) (classes : List ClassId) : Build Unit :=
  classes.forM fun id => discard (generator.declareRecord id)

/-- What the first phase leads to. -/
structure AllDeclared (generator : Generator) (classes : List ClassId) (assembly : Assembly) :
    Prop where
  consistent : assembly.Consistent generator
  entered : ∀ id, assembly.registry.Has id ↔ id ∈ classes
  waiting : ∀ {id : ClassId} {entry : RecordEntry}, assembly.registry.find? id = some entry →
    entry.record = none

/-- What declaring one record after the other preserves holds after all of them. -/
theorem declareAll_preserves {before after : Assembly} {value : Unit}
    (ran : generator.declareAll classes before = .ok value after)
    (holds : List ClassId → Assembly → Prop) (start : holds [] before)
    (each : ∀ {done : List ClassId} {next : ClassId} {definition : ClassDefinition}
      {extension : Option GlobalId} {middle reached : Assembly}, holds done middle →
        generator.DeclareRun next definition extension middle reached →
          holds (done ++ [next]) reached) : holds classes after := by
  refine Build.forM_preserves ran holds start ?_
  intro done next rest _ middle reached earlier stepped
  obtain ⟨global, ran⟩ := Build.discard_eq_ok.mp stepped
  obtain ⟨definition, extension, run⟩ := exists_declareRun ran
  exact each earlier run

theorem allDeclared_empty (generator : Generator) : generator.AllDeclared [] .empty where
  consistent := consistent_empty generator
  entered := fun id => by
    constructor
    · rintro ⟨entry, found⟩
      cases found
    · intro member
      cases member
  waiting := fun found => by cases found

theorem AllDeclared.step {done : List ClassId} {next : ClassId} {before after : Assembly}
    (reached : generator.AllDeclared done before) {definition : ClassDefinition}
    {extension : Option GlobalId}
    (run : generator.DeclareRun next definition extension before after) :
    generator.AllDeclared (done ++ [next]) after := by
  refine ⟨run.consistent reached.consistent, fun id => ?_, fun {id entry} found => ?_⟩
  · rw [run.registered, Registry.has_withEntry, reached.entered, List.mem_append,
      List.mem_singleton, or_comm]
  · rw [run.registered] at found
    rcases Registry.find?_withEntry_eq_some.mp found with ⟨rfl, rfl⟩ | ⟨_, known⟩
    · rfl
    · exact reached.waiting known

theorem allDeclared_of_declareAll {value : Unit}
    (ran : generator.declareAll classes .empty = .ok value declared) :
    generator.AllDeclared classes declared :=
  declareAll_preserves ran generator.AllDeclared (allDeclared_empty generator)
    fun reached run => reached.step run

/-! ## The second phase -/

/-- Generates the records of classes one after the other. -/
def generateAll (generator : Generator) (classes : List ClassId) : Build Unit :=
  classes.forM fun id => discard (generator.generateRecord id)

/-- What the second phase has reached after the records of some classes. -/
structure Generated (generator : Generator) (declared : Assembly) (done : List ClassId)
    (assembly : Assembly) : Prop where
  consistent : assembly.Consistent generator
  continues : assembly.Continues declared
  entered : ∀ id, assembly.registry.Has id ↔ declared.registry.Has id
  completed : ∀ {id : ClassId} {entry : RecordEntry}, id ∈ done →
    assembly.registry.find? id = some entry → ∃ record, entry.record = some record

theorem Generated.isInitialized {done : List ClassId} {middle : Assembly}
    (reached : generator.Generated declared done middle) {id : ClassId} (member : id ∈ done)
    {global : GlobalId} (entered : middle.registry.RecordAt id global) :
    middle.segment.IsInitialized global := by
  obtain ⟨entry, found, rfl⟩ := entered
  obtain ⟨record, isGenerated⟩ := reached.completed member found
  exact reached.consistent.isInitialized found isGenerated

/-- In the order of the classes, the records a class refers to come before its own. -/
theorem partsReady_of_generated {done rest : List ClassId} {next : ClassId}
    {middle after : Assembly}
    (graph : generator.catalog.SoundGraph)
    (order : generator.catalog.ClassOrder (done ++ next :: rest))
    (reached : generator.Generated declared done middle) {entry : RecordEntry}
    {facts : RecordFacts} {parts : RecordParts} {exported : Option GlobalId}
    {prepared placed : Segment}
    (run : generator.RecordRun next entry facts parts exported prepared placed middle after) :
    PartsReady parts middle.segment := by
  have isDefined : generator.catalog.IsDefined next := ⟨_, run.answers.definition⟩
  refine ⟨fun global isSupertype => ?_, fun global member => ?_⟩
  · -- The supertype precedes the class, so its record was generated before.
    have above := run.answers.supertype
    rw [Catalog.supertype?_eq_ok run.answers.definition, Except.ok.injEq] at above
    have entered := run.supertype
    rw [isSupertype] at entered
    cases step : facts.supertype with
    | none =>
      rw [step] at entered
      cases entered
    | some supertype =>
      rw [step] at entered above
      cases entered with
      | some entered =>
        have precedes : generator.catalog.Precedes supertype next :=
          ⟨_, run.answers.definition, .inl above⟩
        exact reached.isInitialized (order.mem_of_transGen (.single precedes)) entered
  · -- So does every interface that can be reached, though over several steps.
    obtain ⟨found, implemented, reachable⟩ :=
      Catalog.exists_interfaces graph order isDefined
    rw [run.answers.interfaces] at implemented
    cases implemented
    obtain ⟨interface, listed, entered⟩ := Outcome.exists_item_of_mem run.interfaces member
    exact reached.isInitialized (order.mem_of_transGen (reachable interface listed)) entered

theorem Generated.step {done rest : List ClassId} {next : ClassId} {middle after : Assembly}
    (graph : generator.catalog.SoundGraph)
    (order : generator.catalog.ClassOrder (done ++ next :: rest))
    (reached : generator.Generated declared done middle) {entry : RecordEntry}
    {facts : RecordFacts} {parts : RecordParts} {exported : Option GlobalId}
    {prepared placed : Segment}
    (run : generator.RecordRun next entry facts parts exported prepared placed middle after) :
    generator.Generated declared (done ++ [next]) after := by
  have isDefined : generator.catalog.IsDefined next := ⟨_, run.answers.definition⟩
  obtain ⟨entries, opened⟩ := Catalog.exists_virtualSlots graph order isDefined
  have ready := partsReady_of_generated graph order reached run
  refine {
    consistent := run.consistent reached.consistent ready opened
    continues := run.continues.trans reached.continues
    entered := fun id => ?_
    completed := fun {id present} member found => ?_ }
  · rw [run.registered, Registry.has_withEntry, reached.entered]
    refine or_iff_right_of_imp ?_
    rintro rfl
    exact (reached.entered id).mp ⟨entry, run.entered⟩
  · rw [run.registered] at found
    rcases Registry.find?_withEntry_eq_some.mp found with ⟨_, rfl⟩ | ⟨differs, known⟩
    · exact ⟨_, rfl⟩
    · refine reached.completed ?_ known
      exact (List.mem_append.mp member).resolve_right fun isNext =>
        differs (List.mem_singleton.mp isNext)

/-- What generating one record after the other preserves holds after all of them. -/
theorem generateAll_preserves {before after : Assembly} {value : Unit}
    (ran : generator.generateAll classes before = .ok value after)
    (holds : List ClassId → Assembly → Prop) (start : holds [] before)
    (each : ∀ {done rest : List ClassId} {next : ClassId} {entry : RecordEntry}
      {facts : RecordFacts} {parts : RecordParts} {exported : Option GlobalId}
      {prepared placed : Segment} {middle reached : Assembly}, classes = done ++ next :: rest →
        holds done middle →
          generator.RecordRun next entry facts parts exported prepared placed middle reached →
            holds (done ++ [next]) reached) : holds classes after := by
  refine Build.forM_preserves ran holds start ?_
  intro done next rest whole middle reached earlier stepped
  obtain ⟨global, ran⟩ := Build.discard_eq_ok.mp stepped
  obtain ⟨entry, facts, parts, exported, prepared, placed, run⟩ := exists_recordRun ran
  exact each whole earlier run

theorem generated_start (start : declared.Consistent generator) :
    generator.Generated declared [] declared :=
  ⟨start, .refl declared, fun _ => Iff.rfl, fun member => by cases member⟩

theorem generated_of_generateAll {value : Unit} (graph : generator.catalog.SoundGraph)
    (order : generator.catalog.ClassOrder classes)
    (start : declared.Consistent generator)
    (ran : generator.generateAll classes declared = .ok value finished) :
    generator.Generated declared classes finished := by
  refine generateAll_preserves ran (generator.Generated declared) (generated_start start) ?_
  rintro done rest next entry facts parts exported prepared placed middle reached rfl earlier run
  exact earlier.step graph order run

/-- A generated record has the type under which its global was declared. -/
theorem Generated.exists_forward {done : List ClassId}
    (reached : generator.Generated declared done finished)
    (start : generator.AllDeclared classes declared) {id : ClassId} (member : id ∈ done)
    {entry : RecordEntry} (found : finished.registry.find? id = some entry) :
    ∃ forward value, declared.segment.get? entry.global = some forward ∧
      forward.initial = none ∧ finished.segment.initial? entry.global = some value ∧
      (TypeRecord.recordPart value).type = forward.type := by
  -- The entry had the same global after the first phase, and it was waiting then.
  obtain ⟨earlier, earlierFound⟩ := (reached.entered id).mp ⟨entry, found⟩
  obtain ⟨kept, keptFound, sameGlobal⟩ := reached.continues.records ⟨earlier, earlierFound, rfl⟩
  rw [found] at keptFound
  cases keptFound
  obtain ⟨_, _, forwardFound⟩ :=
    start.consistent.reserved earlierFound (start.waiting earlierFound)
  rw [← sameGlobal] at forwardFound
  obtain ⟨record, isGenerated⟩ := reached.completed member found
  obtain ⟨_, slots, _, holds⟩ := reached.consistent.generated found isGenerated
  obtain ⟨global, located, _, value⟩ := holds.global
  refine ⟨_, _, forwardFound, rfl, Segment.initial?_eq_some.mpr ⟨global, located, value⟩, ?_⟩
  rw [TypeRecord.recordPart_recordInitial, TypeRecord.constant_type,
    holds.describes.extension.present]
  rfl

end Generator

/-! ## The whole build -/

variable {catalog : Catalog} {target : Target} {assembly : Assembly}

/-- A module is generated in two phases over the classes in their order. -/
theorem generateModule_eq_ok :
    generateModule catalog target = .ok assembly ↔
      ∃ classes declared, catalog.sortClasses = .ok classes ∧
        (Generator.mk catalog target).declareAll classes .empty = .ok () declared ∧
        (Generator.mk catalog target).generateAll classes declared = .ok () assembly := by
  have phases : ∀ classes, (Generator.mk catalog target).buildAll classes .empty =
      ((Generator.mk catalog target).declareAll classes >>= fun _ =>
        (Generator.mk catalog target).generateAll classes) .empty := fun classes => rfl
  unfold generateModule
  rw [Outcome.bind_eq_ok]
  constructor
  · rintro ⟨classes, accepted, generated⟩
    have ran : (Generator.mk catalog target).buildAll classes .empty = .ok () assembly := by
      cases built : (Generator.mk catalog target).buildAll classes .empty with
      | ok value reached =>
        rw [built] at generated
        cases generated
        rfl
      | error failure reached =>
        rw [built] at generated
        cases generated
    rw [phases] at ran
    obtain ⟨_, declared, declaredAll, generatedAll⟩ := Build.bind_eq_ok.mp ran
    exact ⟨classes, declared, Outcome.mapError_eq_ok.mp accepted, declaredAll, generatedAll⟩
  · rintro ⟨classes, declared, accepted, declaredAll, generatedAll⟩
    have ran : (Generator.mk catalog target).buildAll classes .empty = .ok () assembly := by
      rw [phases]
      exact Build.bind_eq_ok.mpr ⟨(), declared, declaredAll, generatedAll⟩
    refine ⟨classes, Outcome.mapError_eq_ok.mpr accepted, ?_⟩
    rw [ran]
    rfl

/-- A module is not generated where its graph is refused or one of the phases stops. -/
theorem generateModule_eq_error {failure : Failure}
    (failed : generateModule catalog target = .error failure) :
    (∃ error, catalog.sortClasses = .error error ∧ .reported (.invalidGraph error) = failure) ∨
      ∃ classes, catalog.sortClasses = .ok classes ∧
        ((∃ after, (Generator.mk catalog target).declareAll classes .empty =
            .error failure after) ∨
          ∃ declared after,
            (Generator.mk catalog target).declareAll classes .empty = .ok () declared ∧
              (Generator.mk catalog target).generateAll classes declared =
                .error failure after) := by
  unfold generateModule at failed
  rcases Outcome.bind_eq_error.mp failed with refused | ⟨classes, accepted, failed⟩
  · cases sorted : catalog.sortClasses with
    | error error =>
      rw [sorted] at refused
      cases refused
      exact .inl ⟨error, rfl, rfl⟩
    | ok classes =>
      rw [sorted] at refused
      cases refused
  · refine .inr ⟨classes, Outcome.mapError_eq_ok.mp accepted, ?_⟩
    have ran : ∃ after, (Generator.mk catalog target).buildAll classes .empty =
        .error failure after := by
      cases built : (Generator.mk catalog target).buildAll classes .empty with
      | ok value reached =>
        rw [built] at failed
        cases failed
      | error stopped reached =>
        rw [built] at failed
        cases failed
        exact ⟨reached, rfl⟩
    obtain ⟨after, ran⟩ := ran
    rcases Build.bind_eq_error.mp ran with failed | ⟨_, declared, declaredAll, failed⟩
    · exact .inl ⟨after, failed⟩
    · exact .inr ⟨declared, after, declaredAll, failed⟩

/-- What the two phases of a build lead to. -/
theorem exists_generated (generated : generateModule catalog target = .ok assembly) :
    ∃ classes declared, catalog.sortClasses = .ok classes ∧
      (Generator.mk catalog target).declareAll classes .empty = .ok () declared ∧
      (Generator.mk catalog target).AllDeclared classes declared ∧
      (Generator.mk catalog target).Generated declared classes assembly := by
  obtain ⟨classes, declared, accepted, declaredAll, generatedAll⟩ :=
    generateModule_eq_ok.mp generated
  have start := Generator.allDeclared_of_declareAll declaredAll
  exact ⟨classes, declared, accepted, declaredAll, start,
    Generator.generated_of_generateAll (Catalog.soundGraph_of_sortClasses accepted)
      (Catalog.classOrder_of_sortClasses accepted) start.consistent generatedAll⟩

/-! ## Main results -/

/-- The records of the sample classes can be generated. -/
theorem exists_generateModule_shapes :
    ∃ assembly, generateModule Catalog.shapes .iphone = .ok assembly := by
  have succeeds : (generateModule Catalog.shapes .iphone).isOk = true := by
    decide +kernel
  cases result : generateModule Catalog.shapes .iphone with
  | error failure =>
    rw [result] at succeeds
    cases succeeds
  | ok assembly => exact ⟨assembly, rfl⟩

/-- What holds of the static data and the registry of a finished module. -/
structure Assembly.Finished (assembly : Assembly) (catalog : Catalog) (target : Target) : Prop where
  undefined : assembly.segment.undefined = []
  references : ∀ {source target : GlobalId}, assembly.segment.RefersTo source target →
    ∃ global, assembly.segment.get? target = some global
  typed : ∀ {id : GlobalId} {global : Global} {value : Constant},
    assembly.segment.get? id = some global → global.initial = some value →
      global.type = value.type ∧ value.WellTyped
  acyclic : ∀ id, ¬ Relation.TransGen assembly.segment.RefersTo id id
  entriesDistinct : assembly.registry.entries.keys.Nodup
  entered : ∀ id, id ∈ assembly.registry.entries.keys ↔ catalog.IsDefined id
  completed : ∀ {id : ClassId} {entry : RecordEntry}, assembly.registry.find? id = some entry →
    ∃ record, entry.record = some record
  distinct : assembly.registry.GlobalsDistinct
  /-- The record part of each record global has the type under which the first phase declared
  it. -/
  declaredType : ∃ classes declared, catalog.sortClasses = .ok classes ∧
    (Generator.mk catalog target).declareAll classes .empty = .ok () declared ∧
    ∀ {id : ClassId} {entry : RecordEntry}, assembly.registry.find? id = some entry →
      ∃ forward value, declared.segment.get? entry.global = some forward ∧
        forward.initial = none ∧ assembly.segment.initial? entry.global = some value ∧
        (TypeRecord.recordPart value).type = forward.type

/-- The static data of a finished module is complete, well typed and without circles. -/
theorem finished_of_generateModule (generated : generateModule catalog target = .ok assembly) :
    assembly.Finished catalog target := by
  obtain ⟨classes, declared, accepted, declaredAll, start, reached⟩ := exists_generated generated
  have order := Catalog.classOrder_of_sortClasses accepted
  have member : ∀ {id}, assembly.registry.Has id ↔ id ∈ classes := by
    intro id
    rw [reached.entered, start.entered]
  have completed : ∀ {id entry}, assembly.registry.find? id = some entry →
      ∃ record, entry.record = some record :=
    fun found => reached.completed (member.mp ⟨_, found⟩) found
  refine {
    undefined := ?_
    references := fun related => ?_
    typed := reached.consistent.closed.typed
    acyclic := reached.consistent.closed.acyclic
    entriesDistinct := assembly.registry.entries.keysDistinct
    entered := fun id => ?_
    completed := completed
    distinct := reached.consistent.distinct
    declaredType := ⟨classes, declared, accepted, declaredAll, fun {id entry} found =>
      reached.exists_forward start (member.mp ⟨_, found⟩) found⟩ }
  · refine List.eq_nil_iff_forall_not_mem.mpr fun id isListed => ?_
    obtain ⟨global, found, waits⟩ := Segment.mem_undefined.mp isListed
    obtain ⟨waiting, entry, entered, isWaiting, _⟩ := reached.consistent.undefined found waits
    obtain ⟨record, isGenerated⟩ := completed entered
    rw [isWaiting] at isGenerated
    cases isGenerated
  · obtain ⟨value, held⟩ := reached.consistent.closed.references related
    obtain ⟨global, found, _⟩ := Segment.initial?_eq_some.mp held
    exact ⟨global, found⟩
  · rw [← order.complete, ← member]
    exact OrderedMap.mem_keys_iff

theorem shapes_finished :
    ∃ assembly, generateModule Catalog.shapes .iphone = .ok assembly ∧
      assembly.Finished Catalog.shapes .iphone := by
  obtain ⟨assembly, generated⟩ := exists_generateModule_shapes
  exact ⟨assembly, generated, finished_of_generateModule generated⟩

/-- The record of each class, read out of the static data of a finished module, says of the class
what is so. -/
theorem describes_of_generateModule (generated : generateModule catalog target = .ok assembly)
    {id : ClassId} {definition : ClassDefinition}
    (defined : catalog.definition? id = some definition) :
    ∃ entry global record slots, assembly.registry.find? id = some entry ∧
      entry.record = some record ∧ assembly.segment.get? entry.global = some global ∧
      global.constant = true ∧
      global.initial.bind TypeRecord.readWithTable? = some (record, slots) ∧
      assembly.Describes ⟨catalog, target⟩ id definition record slots := by
  obtain ⟨classes, declared, accepted, _, start, reached⟩ := exists_generated generated
  have order := Catalog.classOrder_of_sortClasses accepted
  have member : id ∈ classes := (order.complete id).mpr ⟨definition, defined⟩
  obtain ⟨entry, found⟩ := (reached.entered id).mpr ((start.entered id).mpr member)
  obtain ⟨record, isGenerated⟩ := reached.completed member found
  obtain ⟨known, slots, knownDefined, holds⟩ := reached.consistent.generated found isGenerated
  obtain ⟨global, located, isConstant, value⟩ := holds.global
  have sameDefinition : known = definition := Option.some.inj (knownDefined.symm.trans defined)
  subst sameDefinition
  refine ⟨entry, global, record, slots, found, isGenerated, located, isConstant, ?_,
    holds.describes⟩
  rw [value]
  exact TypeRecord.readWithTable?_recordInitial record slots

theorem shapes_described :
    ∃ assembly definition record slots,
      generateModule Catalog.shapes .iphone = .ok assembly ∧
        Catalog.shapes.definition? ⟨4⟩ = some definition ∧
        assembly.Describes ⟨Catalog.shapes, .iphone⟩ ⟨4⟩ definition record slots := by
  obtain ⟨assembly, generated⟩ := exists_generateModule_shapes
  have defined : Catalog.shapes.definition? ⟨4⟩ = some _ := rfl
  obtain ⟨entry, global, record, slots, _, _, _, _, _, described⟩ :=
    describes_of_generateModule generated defined
  exact ⟨assembly, _, record, slots, generated, rfl, described⟩

end TypeRecords
