import TypeRecords.Proofs.Record.Clash
import TypeRecords.Proofs.Record.SharedHash

/-!
Classes whose records cannot be generated.

Owns the four ways in which a class offends, told from the described program alone, and the error
that reports each of them. Where no names clash, a build fails exactly if some class offends, and it
reports the first one: an offence keeps back the record of its own class only, and what is placed
for the classes before does not lead to errors later.
-/

namespace TypeRecords

/-- The ways in which a class keeps its record from being generated. -/
inductive OffenceKind where
  | interfaceField
  | missingFunction
  | sharedHash
  | takenSymbol
deriving DecidableEq, Repr

/-- They are found in this order. -/
def OffenceKind.inOrder : List OffenceKind :=
  [.interfaceField, .missingFunction, .sharedHash, .takenSymbol]

namespace Catalog

open Outcome

variable {catalog : Catalog} {classes : List ClassId} {id : ClassId} {definition : ClassDefinition}

/-! ## Offences -/

/-- The symbol a class is exported under. -/
def exportSymbol? (catalog : Catalog) (id : ClassId) : Option String :=
  (catalog.definition? id).bind ClassDefinition.exportSymbol

/-- Whether a class offends in some way, where records are generated in the order of `classes`. -/
inductive Offence (catalog : Catalog) (classes : List ClassId) (id : ClassId) : OffenceKind → Prop
  | interfaceField {definition : ClassDefinition}
      (defined : catalog.definition? id = some definition)
      (isInterface : definition.isInterface = true) (declares : definition.fields ≠ []) :
      Offence catalog classes id .interfaceField
  | missingFunction {definition : ClassDefinition} {entries : List DispatchEntry}
      {entry : DispatchEntry} (defined : catalog.definition? id = some definition)
      (isConcrete : definition.isAbstract = false) (answered : catalog.members id = .ok entries)
      (member : entry ∈ entries) (lacks : catalog.LacksFunction entry) :
      Offence catalog classes id .missingFunction
  | sharedHash {definition : ClassDefinition} {entries : List DispatchEntry}
      {first second : DispatchEntry} (defined : catalog.definition? id = some definition)
      (isConcrete : definition.isAbstract = false) (answered : catalog.members id = .ok entries)
      (firstMember : first ∈ entries) (secondMember : second ∈ entries)
      (apart : first.name ≠ second.name) (sameHash : memberHash first = memberHash second) :
      Offence catalog classes id .sharedHash
  | takenSymbol {other : ClassId} {symbol : String}
      (asked : catalog.exportSymbol? id = some symbol)
      (earlier : classes.idxOf other < classes.idxOf id)
      (taken : catalog.exportSymbol? other = some symbol) : Offence catalog classes id .takenSymbol

def Offends (catalog : Catalog) (classes : List ClassId) (id : ClassId) : Prop :=
  ∃ kind, catalog.Offence classes id kind

theorem Offence.isDefined {kind : OffenceKind} (offence : catalog.Offence classes id kind) :
    catalog.IsDefined id := by
  cases offence with
  | interfaceField defined _ _ => exact ⟨_, defined⟩
  | missingFunction defined _ _ _ _ => exact ⟨_, defined⟩
  | sharedHash defined _ _ _ _ _ _ => exact ⟨_, defined⟩
  | takenSymbol asked _ _ =>
    obtain ⟨definition, defined, _⟩ := Option.bind_eq_some_iff.mp asked
    exact ⟨definition, defined⟩

/-- Which error reports an offence of a class. -/
inductive OffenceReported (catalog : Catalog) (id : ClassId) : OffenceKind → RecordError → Prop
  | interfaceField {definition : ClassDefinition} {field : FieldDefinition}
      {rest : List FieldDefinition} (defined : catalog.definition? id = some definition)
      (declares : definition.fields = field :: rest) :
      OffenceReported catalog id .interfaceField (.interfaceWithField definition.name field.name)
  | missingFunction {entries : List DispatchEntry} {entry : DispatchEntry}
      (answered : catalog.members id = .ok entries)
      (first : IsFirst catalog.LacksFunction entries entry) :
      OffenceReported catalog id .missingFunction
        (.missingEntryPoint (catalog.describeMethod entry.implementation))
  | sharedHash {definition : ClassDefinition} {entries : List DispatchEntry}
      {first second : DispatchEntry} (defined : catalog.definition? id = some definition)
      (answered : catalog.members id = .ok entries)
      (shared : FirstShared memberHash entries first second) :
      OffenceReported catalog id .sharedHash (.duplicateHash definition.name second.name
        (memberHash second) (catalog.describeEntry first) (catalog.describeEntry second))
  | takenSymbol {definition : ClassDefinition} {symbol : String}
      (defined : catalog.definition? id = some definition)
      (asked : definition.exportSymbol = some symbol) :
      OffenceReported catalog id .takenSymbol (.duplicateExport definition.name symbol)

theorem OffenceReported.unique {kind : OffenceKind} {error other : RecordError}
    (reported : catalog.OffenceReported id kind error)
    (again : catalog.OffenceReported id kind other) : error = other := by
  cases reported with
  | interfaceField defined declares =>
    cases again with
    | interfaceField definedAgain declaresAgain =>
      cases defined.symm.trans definedAgain
      cases declares.symm.trans declaresAgain
      rfl
  | missingFunction answered first =>
    cases again with
    | missingFunction answeredAgain firstAgain =>
      cases answered.symm.trans answeredAgain
      rw [first.unique firstAgain]
  | sharedHash defined answered shared =>
    cases again with
    | sharedHash definedAgain answeredAgain sharedAgain =>
      cases defined.symm.trans definedAgain
      cases answered.symm.trans answeredAgain
      obtain ⟨rfl, rfl⟩ := shared.unique sharedAgain
      rfl
  | takenSymbol defined asked =>
    cases again with
    | takenSymbol definedAgain askedAgain =>
      cases defined.symm.trans definedAgain
      cases asked.symm.trans askedAgain
      rfl

/-- The first offence in an order of classes: its class, its kind and the error that reports it. -/
structure FirstOffence (catalog : Catalog) (classes : List ClassId) (id : ClassId)
    (kind : OffenceKind) (error : RecordError) : Prop where
  isFirst : IsFirst (catalog.Offends classes) classes id
  isFirstKind : IsFirst (catalog.Offence classes id) OffenceKind.inOrder kind
  reported : catalog.OffenceReported id kind error

theorem FirstOffence.unique {other : ClassId} {kind otherKind : OffenceKind}
    {error otherError : RecordError} (first : catalog.FirstOffence classes id kind error)
    (again : catalog.FirstOffence classes other otherKind otherError) : error = otherError := by
  obtain rfl := first.isFirst.unique again.isFirst
  obtain rfl := first.isFirstKind.unique again.isFirstKind
  exact first.reported.unique again.reported

/-- What the names of globals begin with that a build makes up itself. -/
def generatedPrefixes : List String :=
  ["kstr:", Generator.recordPrefix, Generator.extensionPrefix, Generator.interfacesPrefix,
    Generator.tracedPrefix, Generator.fieldsPrefix, Generator.methodsPrefix]

/-- Whether no names of a described program can clash: no two classes display alike, and no symbol
begins like a generated name. -/
structure DistinctNames (catalog : Catalog) : Prop where
  displays : ∀ {first second : ClassId} {firstDefinition secondDefinition : ClassDefinition},
    catalog.definition? first = some firstDefinition →
      catalog.definition? second = some secondDefinition →
        firstDefinition.name.display = secondDefinition.name.display → first = second
  symbols : ∀ {id : ClassId} {symbol : String}, catalog.exportSymbol? id = some symbol →
    ∀ start ∈ generatedPrefixes, ¬ start.toList <+: symbol.toList

theorem DistinctNames.ne_append (distinct : catalog.DistinctNames) {symbol start : String}
    (asked : catalog.exportSymbol? id = some symbol) (isGenerated : start ∈ generatedPrefixes)
    (rest : String) : symbol ≠ start ++ rest := by
  rintro rfl
  apply distinct.symbols asked start isGenerated
  rw [String.toList_append]
  exact List.prefix_append _ _

theorem DistinctNames.ne_stringName (distinct : catalog.DistinctNames) {symbol : String}
    (asked : catalog.exportSymbol? id = some symbol) (number : Nat) :
    symbol ≠ Segment.stringName number :=
  distinct.ne_append asked List.mem_cons_self number.repr

/-! ## Questions about a class -/

theorem checkInterfaceFields_eq_error {failure : Failure}
    (failed : checkInterfaceFields definition = .error failure) :
    definition.isInterface = true ∧ ∃ field rest, definition.fields = field :: rest ∧
      failure = .reported (.interfaceWithField definition.name field.name) := by
  unfold checkInterfaceFields at failed
  split at failed
  · rename_i field rest isInterface declares
    exact ⟨isInterface, field, rest, declares, (Except.error.inj failed).symm⟩
  · cases failed

theorem fields_eq_nil_of_checkInterfaceFields (isInterface : definition.isInterface = true)
    (checked : checkInterfaceFields definition = .ok ()) : definition.fields = [] := by
  unfold checkInterfaceFields at checked
  split at checked
  · cases checked
  · rename_i otherwise
    cases declared : definition.fields with
    | nil => rfl
    | cons field rest => exact absurd declared (otherwise field rest isInterface)

theorem checkInterfaceFields_of_instanceLayout {target : Target} {layout : InstanceLayout}
    (defined : catalog.definition? id = some definition)
    (laidOut : catalog.instanceLayout target id = .ok layout) :
    checkInterfaceFields definition = .ok () := by
  unfold instanceLayout at laidOut
  rw [definition_eq_ok.mpr defined] at laidOut
  change (checkInterfaceFields definition >>= _) = _ at laidOut
  obtain ⟨⟨⟩, checked, _⟩ := bind_eq_ok.mp laidOut
  exact checked

/-- The fields of interfaces are all that a layout can fail for. -/
theorem checkInterfaceFields_of_instanceLayout_eq_error (graph : catalog.SoundGraph)
    (order : catalog.ClassOrder classes) (defined : catalog.definition? id = some definition)
    {target : Target} {failure : Failure}
    (failed : catalog.instanceLayout target id = .error failure) :
    checkInterfaceFields definition = .error failure := by
  obtain ⟨fields, answered⟩ := exists_instanceFields graph order ⟨definition, defined⟩
  obtain ⟨body, built⟩ : ∃ body, StructLayout.build (target.bodyElements fields) = .ok body :=
    StructLayout.exists_buildFrom (aligned_bodyElements target fields) 0 1
  unfold instanceLayout at failed
  rw [definition_eq_ok.mpr defined, answered] at failed
  change (checkInterfaceFields definition >>= _) = _ at failed
  rcases bind_eq_error.mp failed with refused | ⟨_, _, failed⟩
  · exact refused
  · change ((liftM (StructLayout.build (target.bodyElements fields)) :
      Except Failure StructLayout) >>= _) = _ at failed
    rw [built] at failed
    cases failed

/-- The virtual table of a class can be made once its method table is. -/
theorem exists_virtualTable_of_methodTable (graph : catalog.SoundGraph)
    (order : catalog.ClassOrder classes) (defined : catalog.definition? id = some definition)
    (isConcrete : definition.isAbstract = false) {records : List MethodRecord}
    (tabled : catalog.methodTable id = .ok records) :
    ∃ slots, catalog.virtualTable id = .ok slots := by
  have proper := isInterface_eq_false_of_isAbstract_eq_false isConcrete
  have isProper := isProper_of_isInterface_eq_false defined proper
  obtain ⟨chain, ancestry⟩ := exists_ancestry graph order ⟨definition, defined⟩
  have members := members_eq graph order ancestry isProper
  obtain ⟨unsorted, pairs, _⟩ := (methodTable_eq_ok defined isConcrete members).mp tabled
  exact exists_virtualTable (virtualSlots_eq graph ancestry isProper)
    (allDeclared_of_members graph order defined proper members)
    (memberTable_of_ancestry graph order ancestry).slotsFirst pairs

theorem names_nodup_of_members (graph : catalog.SoundGraph) (order : catalog.ClassOrder classes)
    (defined : catalog.definition? id = some definition)
    (isConcrete : definition.isAbstract = false)
    {entries : List DispatchEntry} (answered : catalog.members id = .ok entries) :
    (entries.map DispatchEntry.name).Nodup := by
  have isProper := isProper_of_isInterface_eq_false defined
    (isInterface_eq_false_of_isAbstract_eq_false isConcrete)
  obtain ⟨chain, ancestry⟩ := exists_ancestry graph order ⟨definition, defined⟩
  rw [members_eq graph order ancestry isProper, Except.ok.injEq] at answered
  exact answered ▸ (memberTable_of_ancestry graph order ancestry).namesDistinct

end Catalog

namespace Generator

open Catalog

variable {generator : Generator} {classes : List ClassId} {id : ClassId}

/-- A class whose questions are answered can offend by its symbol only. -/
theorem Answers.eq_takenSymbol {facts : RecordFacts} (answers : generator.Answers id facts)
    {kind : OffenceKind} (offence : generator.catalog.Offence classes id kind) :
    kind = .takenSymbol := by
  cases offence with
  | interfaceField defined isInterface declares =>
    exact absurd (fields_eq_nil_of_checkInterfaceFields isInterface
      (checkInterfaceFields_of_instanceLayout defined answers.layout)) declares
  | missingFunction defined isConcrete answered member lacks =>
    exact absurd lacks
      ((complete_of_methodTable defined isConcrete answered answers.methods).1 _ member)
  | sharedHash defined isConcrete answered firstMember secondMember apart sameHash =>
    have distinct := (complete_of_methodTable defined isConcrete answered answers.methods).2
    have same := List.inj_on_of_nodup_map distinct firstMember secondMember sameHash
    exact absurd (congrArg DispatchEntry.name same) apart
  | takenSymbol => rfl

/-- A question about a class of an accepted graph is refused for the first way in which the class
offends. -/
theorem exists_offence_of_unanswered (graph : generator.catalog.SoundGraph)
    (order : generator.catalog.ClassOrder classes) (isDefined : generator.catalog.IsDefined id)
    {error : RecordError} (why : generator.Unanswered id (.reported error)) :
    ∃ kind, IsFirst (generator.catalog.Offence classes id) OffenceKind.inOrder kind ∧
      generator.catalog.OffenceReported id kind error := by
  obtain ⟨definition, defined⟩ := isDefined
  cases why with
  | layout asked =>
    obtain ⟨isInterface, field, rest, declares, same⟩ := checkInterfaceFields_eq_error
      (checkInterfaceFields_of_instanceLayout_eq_error graph order defined asked)
    cases same
    refine ⟨.interfaceField, .here (.interfaceField defined isInterface ?_),
      .interfaceField defined declares⟩
    rw [declares]
    exact List.cons_ne_nil _ _
  | methods laidOut asked =>
    cases isAbstract : definition.isAbstract with
    | true =>
      rw [methodTable, definition_eq_ok.mpr defined] at asked
      change (if definition.isAbstract = true then _ else _) = _ at asked
      rw [if_pos isAbstract] at asked
      cases asked
    | false =>
      have proper := isInterface_eq_false_of_isAbstract_eq_false isAbstract
      obtain ⟨entries, answered⟩ := exists_members graph order ⟨definition, defined⟩
      have declared := allDeclared_of_members graph order defined proper answered
      obtain ⟨_, same, refused⟩ :=
        tableRefused_of_methodTable defined isAbstract answered declared asked
      cases same
      have noField : ¬ generator.catalog.Offence classes id .interfaceField := by
        rintro ⟨definedAgain, isInterface, _⟩
        cases defined.symm.trans definedAgain
        rw [proper] at isInterface
        cases isInterface
      cases refused with
      | missingFunction first =>
        exact ⟨.missingFunction, .later noField (.here (.missingFunction defined isAbstract answered
          first.mem first.holds_item)), .missingFunction answered first⟩
      | sharedHash complete shared =>
        have noFunction : ¬ generator.catalog.Offence classes id .missingFunction := by
          rintro (_ | ⟨_, _, answeredAgain, member, lacks⟩)
          cases answered.symm.trans answeredAgain
          exact complete _ member lacks
        have apart := shared.apart (names_nodup_of_members graph order defined isAbstract answered)
        exact ⟨.sharedHash, .later noField (.later noFunction (.here (.sharedHash defined isAbstract
          answered shared.mem_first shared.mem_second apart shared.same_hash))),
          .sharedHash defined answered shared⟩
  | virtualTable definedAgain laidOut tabled asked =>
    cases defined.symm.trans definedAgain
    cases isAbstract : definition.isAbstract with
    | true => simp [recordVirtualTable, isAbstract, pure, Except.pure] at asked
    | false =>
      obtain ⟨slots, answered⟩ :=
        exists_virtualTable_of_methodTable graph order defined isAbstract tabled
      simp [recordVirtualTable, isAbstract, answered, pure, Except.pure, bind, Except.bind] at asked

/-! ## The second phase -/

section Names

variable {before after start finish : Segment} {name : String} {place : GlobalId}

theorem PartPlaced.find?_names (part : PartPlaced before after)
    (found : before.names.find? name = some place) : after.names.find? name = some place := by
  cases part with
  | array _ placed =>
    obtain ⟨isFree, _, rfl⟩ := Segment.placeArray_eq_ok.mp placed
    exact Segment.find?_names_withGlobal_of_free isFree found
  | text interned =>
    rcases Segment.internString_eq_ok.mp interned with ⟨_, rfl⟩ | ⟨_, isFree, _, rfl⟩
    · exact found
    · exact Segment.find?_names_withGlobal_of_free isFree found

/-- Placing the parts of a record takes no name away. -/
theorem PartsBegun.find?_names (begun : PartsBegun before after)
    (found : before.names.find? name = some place) : after.names.find? name = some place := by
  induction begun with
  | refl => exact found
  | tail _ part inductionHypothesis => exact part.find?_names inductionHypothesis

variable {definition : ClassDefinition} {global : GlobalId} {exported : Option GlobalId}

/-- A symbol that a class is exported under was free before, and is taken then. -/
theorem Exported.isFree (run : Exported definition global exported start finish)
    (asked : definition.exportSymbol = some name) : start.names.find? name = none := by
  cases run with
  | absent _ unasked => cases unasked.symm.trans asked
  | placed _ own isFree _ =>
    cases own.symm.trans asked
    exact isFree

theorem Exported.find?_symbol (run : Exported definition global exported start finish)
    (asked : definition.exportSymbol = some name) :
    finish.names.find? name = some start.nextId := by
  cases run with
  | absent _ unasked => cases unasked.symm.trans asked
  | placed _ own _ _ =>
    cases own.symm.trans asked
    change (start.withGlobal _).names.find? _ = _
    rw [Segment.find?_names_withGlobal]
    exact if_pos rfl

theorem Exported.find?_names (run : Exported definition global exported start finish)
    (found : start.names.find? name = some place) : finish.names.find? name = some place := by
  cases run with
  | absent => exact found
  | @placed symbol _ _ isFree _ =>
    have free : start.names.find? symbol = none := isFree
    exact Segment.find?_names_withGlobal_of_free free found

theorem names_eq_of_placeRecord {record : TypeRecord} {virtualTable : Option Constant}
    (placed : Segment.placeRecord global record virtualTable before =
      .ok ((), after)) : after.names = before.names := by
  obtain ⟨_, declared, _, _, rfl⟩ := Segment.placeRecord_eq_ok.mp placed
  rfl

end Names

section Phase

variable {done rest : List ClassId} {next : ClassId} {declared before after : Assembly}

/-- The second phase with what it says of the classes whose records are generated: none of them
offends, and their symbols are taken. -/
structure GeneratedBlameless (generator : Generator) (classes : List ClassId) (declared : Assembly)
    (done : List ClassId) (assembly : Assembly) : Prop
    extends generator.GeneratedNames declared done assembly where
  symbolsTaken : ∀ {id : ClassId} {symbol : String}, id ∈ done →
    generator.catalog.exportSymbol? id = some symbol →
      ∃ place, assembly.segment.names.find? symbol = some place
  blameless : ∀ id ∈ done, ¬ generator.catalog.Offends classes id

theorem GeneratedBlameless.step (graph : generator.catalog.SoundGraph)
    (order : generator.catalog.ClassOrder (done ++ next :: rest))
    (reached : generator.GeneratedBlameless (done ++ next :: rest) declared done before)
    {entry : RecordEntry} {facts : RecordFacts} {parts : RecordParts} {exported : Option GlobalId}
    {prepared placed : Segment}
    (run : generator.RecordRun next entry facts parts exported prepared placed before after) :
    generator.GeneratedBlameless (done ++ next :: rest) declared (done ++ [next]) after := by
  have kept : ∀ {name place}, before.segment.names.find? name = some place →
      placed.names.find? name = some place := by
    intro name place found
    rw [names_eq_of_placeRecord run.recordPlaced]
    exact run.partsPlaced.begun.find?_names found
  have asks : ∀ {symbol}, generator.catalog.exportSymbol? next = some symbol →
      facts.definition.exportSymbol = some symbol := by
    intro symbol asked
    rw [exportSymbol?, run.answers.definition] at asked
    exact asked
  refine {
    toGeneratedNames := reached.toGeneratedNames.step graph order run
    symbolsTaken := fun {id symbol} member asked => ?_
    blameless := fun id member => ?_ }
  · rcases List.mem_append.mp member with earlier | isNext
    · obtain ⟨place, found⟩ := reached.symbolsTaken earlier asked
      exact ⟨place, run.addressExported.find?_names (kept found)⟩
    · obtain rfl := List.mem_singleton.mp isNext
      exact ⟨_, run.addressExported.find?_symbol (asks asked)⟩
  · rcases List.mem_append.mp member with earlier | isNext
    · exact reached.blameless id earlier
    · obtain rfl := List.mem_singleton.mp isNext
      rintro ⟨kind, offence⟩
      obtain rfl := run.answers.eq_takenSymbol offence
      cases offence with
      | takenSymbol asked earlier taken =>
        -- The symbol of an earlier class was taken before, but this one was free.
        obtain ⟨place, found⟩ :=
          reached.symbolsTaken
            ((FirstOccurrence.idxOf_lt_idxOf_iff_mem order.distinct).mp earlier) taken
        have free := run.addressExported.isFree (asks asked)
        rw [kept found] at free
        cases free

/-- None of the classes offends whose records are generated. -/
theorem generatedBlameless_of_generateAll {value : Unit} (graph : generator.catalog.SoundGraph)
    (order : generator.catalog.ClassOrder (done ++ rest))
    (start : generator.DeclaredNames classes declared)
    (ran : generator.generateAll done declared = .ok value after) :
    generator.GeneratedBlameless (done ++ rest) declared done after := by
  refine generateAll_preserves ran (generator.GeneratedBlameless (done ++ rest) declared) ?_ ?_
  · exact {
      toGenerated := generated_start start.consistent
      waiting := fun found _ => start.waiting found
      names := start.names
      symbolsTaken := fun member => by cases member
      blameless := fun _ member => by cases member }
  · rintro earlier later next entry facts parts exported prepared placed middle reached rfl holds
      run
    rw [List.append_assoc, List.cons_append] at order holds ⊢
    exact holds.step graph order run

/-- A record is not generated for the first way in which its class offends. -/
theorem exists_offence_of_recordStop (graph : generator.catalog.SoundGraph)
    (order : generator.catalog.ClassOrder (done ++ next :: rest))
    (distinct : generator.catalog.DistinctNames)
    (reached : generator.GeneratedNames declared done before) {error : RecordError}
    {segment : Segment} (stop : generator.RecordStop next before (.reported error) segment) :
    ∃ kind, IsFirst (generator.catalog.Offence (done ++ next :: rest) next)
        OffenceKind.inOrder kind ∧ generator.catalog.OffenceReported next kind error := by
  cases stop with
  | unanswered why _ =>
    exact exists_offence_of_unanswered graph order ((order.complete next).mp (by simp)) why
  | @symbolTaken _ facts _ _ _ symbol existing prepares recordPlaced asked taken =>
    have onlySymbol : ∀ kind, kind ≠ .takenSymbol →
        ¬ generator.catalog.Offence (done ++ next :: rest) next kind :=
      fun kind differs offence => differs (prepares.answers.eq_takenSymbol offence)
    have asks : generator.catalog.exportSymbol? next = some symbol := by
      rw [exportSymbol?, prepares.answers.definition]
      exact asked
    have known : segment.NamesFrom (generator.FixedName before.registry) := by
      obtain ⟨_, _, _, _, rfl⟩ := Segment.placeRecord_eq_ok.mp recordPlaced
      have atPrepared := reached.names.partsBegun prepares.partsPlaced.begun
      exact atPrepared
    refine ⟨.takenSymbol, ?_, .takenSymbol prepares.answers.definition asked⟩
    refine .later (onlySymbol _ (by decide)) (.later (onlySymbol _ (by decide))
      (.later (onlySymbol _ (by decide)) (.here ?_)))
    rcases known symbol existing taken with
      fixed | ⟨start, isGenerated, rest, same⟩ | ⟨number, _, same⟩
    · cases fixed with
      | record => exact absurd rfl (distinct.ne_append asks (by decide) _)
      | @symbol other entry _ _ entered generated defined otherAsked =>
        -- Only classes generated before have a record by now.
        have earlier : other ∈ done := by
          by_contra notDone
          rw [reached.waiting entered notDone] at generated
          cases generated
        refine .takenSymbol asks
          ((FirstOccurrence.idxOf_lt_idxOf_iff_mem order.distinct).mpr earlier) ?_
        rw [exportSymbol?, defined]
        exact otherAsked
    · have isPrefix : ∀ start ∈ extensionPrefix :: tablePrefixes, start ∈ generatedPrefixes := by
        decide
      exact absurd same (distinct.ne_append asks (isPrefix start isGenerated) rest)
    · exact absurd same (distinct.ne_stringName asks number)

end Phase

end Generator

/-! ## Main result -/

namespace Catalog

variable {catalog : Catalog} {classes : List ClassId} {target : Target}

/-- No fault is left where no names clash. -/
theorem DistinctNames.not_nameClash (distinct : catalog.DistinctNames) (fault : Fault) :
    ¬ (Generator.mk catalog target).NameClash fault := by
  intro clash
  cases clash with
  | displays apart firstDefined secondDefined alike =>
    exact apart (distinct.displays firstDefined secondDefined alike)
  | @symbol id definition number _ defined asked =>
    have asks : catalog.exportSymbol? id = some (Segment.stringName number) := by
      rw [exportSymbol?, defined]
      exact asked
    exact distinct.ne_stringName asks number rfl

theorem exists_firstOffence (accepted : catalog.sortClasses = .ok classes)
    (distinct : catalog.DistinctNames) {failure : Failure}
    (failed : generateModule catalog target = .error failure) :
    ∃ id kind error, catalog.FirstOffence classes id kind error ∧ failure = .reported error := by
  have graph := soundGraph_of_sortClasses accepted
  have order := classOrder_of_sortClasses accepted
  rcases generateModule_eq_error failed with
    ⟨error, refused, _⟩ | ⟨others, sorted, ⟨after, stopped⟩ | ⟨declared, after, ran, stopped⟩⟩
  · rw [accepted] at refused
    cases refused
  · cases accepted.symm.trans sorted
    obtain ⟨fault, _, clash⟩ := Generator.nameClash_of_declareAll order.distinct
      (fun id member => (order.complete id).mp member) stopped
    exact absurd clash (distinct.not_nameClash fault)
  · cases accepted.symm.trans sorted
    have start := Generator.declaredNames_of_declareAll ran
    cases failure with
    | fault fault =>
      exact absurd (Generator.nameClash_of_generateAll graph order start stopped)
        (distinct.not_nameClash fault)
    | reported error =>
      obtain ⟨done, next, rest, middle, rfl, generated, failedAt⟩ := Build.forM_eq_error stopped
      have reached := Generator.generatedBlameless_of_generateAll graph order start generated
      obtain ⟨segment, stop, _⟩ := Generator.exists_recordStop (Build.discard_eq_error.mp failedAt)
      obtain ⟨kind, isFirstKind, reported⟩ := Generator.exists_offence_of_recordStop graph order
        distinct reached.toGeneratedNames stop
      exact ⟨next, kind, error, ⟨.of_append reached.blameless ⟨kind, isFirstKind.holds_item⟩,
        isFirstKind, reported⟩, rfl⟩

theorem not_offends_of_generateModule (accepted : catalog.sortClasses = .ok classes)
    {assembly : Assembly} (generated : generateModule catalog target = .ok assembly)
    (id : ClassId) :
    ¬ catalog.Offends classes id := by
  obtain ⟨others, declared, sorted, declaredAll, generatedAll⟩ := generateModule_eq_ok.mp generated
  cases accepted.symm.trans sorted
  have order := classOrder_of_sortClasses accepted
  have whole : catalog.ClassOrder (classes ++ []) := by rwa [List.append_nil]
  have reached := Generator.generatedBlameless_of_generateAll (soundGraph_of_sortClasses accepted)
    whole (Generator.declaredNames_of_declareAll declaredAll) generatedAll
  rw [List.append_nil] at reached
  rintro ⟨kind, offence⟩
  exact reached.blameless id ((order.complete id).mpr offence.isDefined) ⟨kind, offence⟩

/-- Where no names clash, generating a module fails exactly if some class offends, and then the
first offence is reported. -/
theorem generateModule_fails_iff_offends {catalog : Catalog} {classes : List ClassId}
    (accepted : catalog.sortClasses = .ok classes) (distinct : catalog.DistinctNames)
    (target : Target) :
    ((∃ failure, generateModule catalog target = .error failure) ↔
      ∃ id, catalog.Offends classes id) ∧
    ∀ failure, generateModule catalog target = .error failure ↔
      ∃ id kind error, catalog.FirstOffence classes id kind error ∧ failure = .reported error := by
  have fails : (∃ id, catalog.Offends classes id) →
      ∃ failure, generateModule catalog target = .error failure := by
    rintro ⟨id, offends⟩
    cases ended : generateModule catalog target with
    | ok assembly => exact absurd offends (not_offends_of_generateModule accepted ended id)
    | error failure => exact ⟨failure, rfl⟩
  refine ⟨⟨?_, fails⟩, fun failure => ⟨exists_firstOffence accepted distinct, ?_⟩⟩
  · rintro ⟨failure, failed⟩
    obtain ⟨id, _, _, first, _⟩ := exists_firstOffence accepted distinct failed
    exact ⟨id, first.isFirst.holds_item⟩
  · rintro ⟨id, kind, error, first, rfl⟩
    obtain ⟨failure, failed⟩ := fails ⟨id, first.isFirst.holds_item⟩
    obtain ⟨_, _, other, again, rfl⟩ := exists_firstOffence accepted distinct failed
    rw [failed, again.unique first]

/-- Three classes, one below the other, that ask for one symbol. The second has a method without a
function as well, which is found before its symbol, and the third inherits it. -/
def offenders : Catalog where
  classes := .ofList [(.root, bareClass ["Any"] none none),
    (⟨1⟩, bareClass ["First"] none (some "record")),
    (⟨2⟩, .defined {
      name := ⟨["Second"]⟩
      kind := .proper
      modality := .inheritable
      scope := .topLevel
      superclass := some ⟨1⟩
      interfaces := []
      fields := []
      methods := [⟨"run", .concrete, none, true⟩]
      exportSymbol := some "record" }),
    (⟨3⟩, bareClass ["Third"] (some ⟨2⟩) (some "record"))]
  functions := .empty
  valueBoxes := .empty

theorem offenders_distinctNames : offenders.DistinctNames where
  displays := by
    have each : ∀ first ∈ offenders.definitions, ∀ second ∈ offenders.definitions,
        first.2.name.display = second.2.name.display → first.1 = second.1 := by decide +kernel
    intro first second firstDefinition secondDefinition firstDefined secondDefined
    exact each _ (mem_definitions.mpr firstDefined) _ (mem_definitions.mpr secondDefined)
  symbols := by
    have each : ∀ entry ∈ offenders.definitions, ∀ symbol ∈ entry.2.exportSymbol,
        ∀ start ∈ generatedPrefixes, ¬ start.toList <+: symbol.toList := by decide +kernel
    intro id symbol asked
    obtain ⟨definition, defined, own⟩ := Option.bind_eq_some_iff.mp asked
    exact each _ (mem_definitions.mpr defined) _ own

theorem offenders_firstOffence :
    ∃ id kind, offenders.FirstOffence [ClassId.root, ⟨1⟩, ⟨2⟩, ⟨3⟩] id kind
      (.missingEntryPoint "Second.run") := by
  have accepted : offenders.sortClasses = .ok [ClassId.root, ⟨1⟩, ⟨2⟩, ⟨3⟩] := by
    decide +kernel
  have failed : generateModule offenders .iphone =
      .error (.reported (.missingEntryPoint "Second.run")) :=
    generateModule_eq_error_of_map (by decide +kernel)
  have agrees := generateModule_fails_iff_offends accepted offenders_distinctNames .iphone
  obtain ⟨id, kind, _, first, same⟩ := (agrees.2 _).mp failed
  cases same
  exact ⟨id, kind, first⟩

end Catalog

end TypeRecords
