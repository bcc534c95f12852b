import TypeRecords.Proofs.Record.Module

/-!
Clashes between names.

Owns the invariant that says where the name of each global comes from, and from it the only two
faults a described program can lead to. Records, strings and exported addresses have fixed names;
all other names are made unused. So a build is only misused where two classes have different names
that display alike, or where the symbol of a class looks like the name of a string. Neither is
refused by the checks of the class graph.
-/

namespace TypeRecords

/-- The first two characters of a name. They tell generated names of different kinds apart. -/
def initials (name : String) : List Char := name.toList.take 2

theorem initials_append {start : String} (long : 2 ≤ start.toList.length) (rest : String) :
    initials (start ++ rest) = initials start := by
  unfold initials
  rw [String.toList_append, List.take_append_of_le_length long]

/-! ## Where names come from -/

namespace Segment

open Generator

/-- Whether each name that is no other known name belongs to an array or to an extension record,
or to one of the strings placed so far. -/
def NamesFrom (segment : Segment) (others : String → Prop) : Prop :=
  ∀ name id, segment.names.find? name = some id → others name ∨
    (∃ start ∈ extensionPrefix :: tablePrefixes, ∃ rest, name = start ++ rest) ∨
      ∃ number < segment.strings.size, name = stringName number

namespace NamesFrom

variable {segment before after : Segment} {others : String → Prop}

theorem mono (known : segment.NamesFrom others) {more : String → Prop}
    (includes : ∀ name, others name → more name) : segment.NamesFrom more := by
  intro name id found
  rcases known name id found with other | generated
  · exact .inl (includes name other)
  · exact .inr generated

theorem withGlobal (known : segment.NamesFrom others) {global : Global}
    (origin : others global.name ∨
      ∃ start ∈ extensionPrefix :: tablePrefixes, ∃ rest, global.name = start ++ rest) :
    (segment.withGlobal global).NamesFrom others := by
  intro name id found
  rw [find?_names_withGlobal] at found
  by_cases isNew : name = global.name
  · subst isNew
    rcases origin with other | generated
    · exact .inl other
    · exact .inr (.inl generated)
  · rw [if_neg isNew] at found
    exact known name id found

/-- A name that is made unused still begins with the kind of the global. -/
theorem withGlobal_unusedName (known : segment.NamesFrom others) {start name : String}
    (isGenerated : start ∈ extensionPrefix :: tablePrefixes) {global : Global}
    (named : global.name = segment.unusedName (start ++ name)) :
    (segment.withGlobal global).NamesFrom others := by
  obtain ⟨rest, shape⟩ := exists_unusedName_eq_append segment (start ++ name)
  apply known.withGlobal
  exact .inr ⟨start, isGenerated, name ++ rest, by rw [named, shape, String.append_assoc]⟩

theorem internString (known : before.NamesFrom others) {text : String} {id : GlobalId}
    (interned : internString text before = .ok (id, after)) : after.NamesFrom others := by
  rcases internString_eq_ok.mp interned with ⟨_, rfl⟩ | ⟨isNew, _, rfl, rfl⟩
  · exact known
  · intro name place found
    have larger : (before.strings.insert text before.nextId).size = before.strings.size + 1 :=
      OrderedMap.size_insert isNew before.nextId
    change (before.withGlobal _).names.find? name = some place at found
    rw [find?_names_withGlobal] at found
    split at found
    · rename_i sameName
      exact .inr (.inr ⟨before.strings.size, larger ▸ Nat.lt_succ_self _, sameName⟩)
    · rcases known name place found with other | generated | ⟨number, below, same⟩
      · exact .inl other
      · exact .inr (.inl generated)
      · exact .inr (.inr ⟨number, larger ▸ Nat.lt_succ_of_lt below, same⟩)

theorem partsBegun (known : before.NamesFrom others) (begun : PartsBegun before after) :
    after.NamesFrom others := by
  induction begun with
  | refl => exact known
  | tail _ part inductionHypothesis =>
    cases part with
    | array isTable placed =>
      obtain ⟨_, _, rfl⟩ := placeArray_eq_ok.mp placed
      exact inductionHypothesis.withGlobal_unusedName (List.mem_cons_of_mem _ isTable) rfl
    | text interned => exact inductionHypothesis.internString interned

end NamesFrom

end Segment

namespace Generator

open Assembly Segment

variable {generator : Generator} {classes done rest : List ClassId} {id next : ClassId}
  {declared before after : Assembly}

/-- A name with a fixed text: that of the record of an entered class, or the symbol of one whose
record is generated. -/
inductive FixedName (generator : Generator) (registry : Registry) : String → Prop
  | record {id : ClassId} {definition : ClassDefinition} (entered : registry.Has id)
      (defined : generator.catalog.definition? id = some definition) :
      FixedName generator registry (recordPrefix ++ definition.name.display)
  | symbol {id : ClassId} {entry : RecordEntry} {definition : ClassDefinition} {symbol : String}
      (entered : registry.find? id = some entry) (generated : entry.record.isSome = true)
      (defined : generator.catalog.definition? id = some definition)
      (asked : definition.exportSymbol = some symbol) : FixedName generator registry symbol

/-! ## Names of different kinds -/

theorem initials_recordName (name : String) : initials (recordPrefix ++ name) = ['k', 't'] := by
  rw [initials_append (by decide)]
  decide

theorem initials_stringName (number : Nat) : initials (stringName number) = ['k', 's'] := by
  show initials ("kstr:" ++ number.repr) = _
  rw [initials_append (by decide)]
  decide

/-- The names of arrays and extension records begin unlike those of records and strings. -/
theorem initials_generated {start : String} (isGenerated : start ∈ extensionPrefix :: tablePrefixes)
    (rest : String) :
    initials (start ++ rest) ≠ ['k', 't'] ∧ initials (start ++ rest) ≠ ['k', 's'] := by
  have long : ∀ start ∈ extensionPrefix :: tablePrefixes, 2 ≤ start.toList.length := by decide
  have apart : ∀ start ∈ extensionPrefix :: tablePrefixes,
      initials start ≠ ['k', 't'] ∧ initials start ≠ ['k', 's'] := by decide
  rw [initials_append (long start isGenerated)]
  exact apart start isGenerated

/-- A taken record name is a fixed one. -/
theorem fixedName_of_recordName {segment : Segment} {others : String → Prop}
    (known : segment.NamesFrom others) {name : String} {existing : GlobalId}
    (taken : segment.names.find? (recordPrefix ++ name) = some existing) :
    others (recordPrefix ++ name) := by
  have kind := initials_recordName name
  rcases known _ existing taken with other | ⟨start, isGenerated, rest, same⟩ | ⟨number, _, same⟩
  · exact other
  · rw [same] at kind
    exact absurd kind (initials_generated isGenerated rest).1
  · rw [same, initials_stringName] at kind
    cases kind

/-- So is the name of the next string, if it is taken. -/
theorem fixedName_of_stringName {segment : Segment} {others : String → Prop}
    (known : segment.NamesFrom others) {existing : GlobalId}
    (taken : segment.names.find? (stringName segment.strings.size) = some existing) :
    others (stringName segment.strings.size) := by
  have kind := initials_stringName segment.strings.size
  rcases known _ existing taken with
    other | ⟨start, isGenerated, rest, same⟩ | ⟨number, below, same⟩
  · exact other
  · rw [same] at kind
    exact absurd kind (initials_generated isGenerated rest).2
  · have sameNumber := stringName_injective same
    omega

/-! ## The first phase -/

/-- A fault that comes from the names a described program has: two of its classes display alike, or
the symbol of one looks like the name of a string. -/
inductive NameClash (generator : Generator) : Fault → Prop
  | displays {first second : ClassId} {firstDefinition secondDefinition : ClassDefinition}
      {existing : GlobalId} (apart : first ≠ second)
      (firstDefined : generator.catalog.definition? first = some firstDefinition)
      (secondDefined : generator.catalog.definition? second = some secondDefinition)
      (alike : firstDefinition.name.display = secondDefinition.name.display) :
      NameClash generator (.globalNameTaken (recordPrefix ++ firstDefinition.name.display) existing)
  | symbol {id : ClassId} {definition : ClassDefinition} {number : Nat} {existing : GlobalId}
      (defined : generator.catalog.definition? id = some definition)
      (asked : definition.exportSymbol = some (stringName number)) :
      NameClash generator (.globalNameTaken (stringName number) existing)

/-- The first phase with the names of what it has declared. -/
structure DeclaredNames (generator : Generator) (done : List ClassId) (assembly : Assembly) :
    Prop extends generator.AllDeclared done assembly where
  names : assembly.segment.NamesFrom (generator.FixedName assembly.registry)
  /-- Every entered class has its record name. -/
  taken : ∀ {id : ClassId} {definition : ClassDefinition}, id ∈ done →
    generator.catalog.definition? id = some definition →
      ∃ place, assembly.segment.names.find? (recordPrefix ++ definition.name.display) = some place
  apart : ∀ {first second : ClassId} {firstDefinition secondDefinition : ClassDefinition},
    first ∈ done → second ∈ done → generator.catalog.definition? first = some firstDefinition →
      generator.catalog.definition? second = some secondDefinition →
        firstDefinition.name.display = secondDefinition.name.display → first = second

theorem ExtensionPlaced.namesFrom {name : String} {extension : Option GlobalId}
    {start finish : Segment} (run : generator.ExtensionPlaced name extension start finish)
    {others : String → Prop} (known : start.NamesFrom others) : finish.NamesFrom others := by
  cases run with
  | absent => exact known
  | placed _ placed =>
    obtain ⟨_, _, rfl⟩ := placeWritable_eq_ok.mp placed
    exact known.withGlobal_unusedName List.mem_cons_self rfl

/-- Placing an extension record takes no name away. -/
theorem ExtensionPlaced.find?_names {name wanted : String} {extension : Option GlobalId}
    {start finish : Segment} (run : generator.ExtensionPlaced name extension start finish)
    {place : GlobalId} (found : start.names.find? wanted = some place) :
    finish.names.find? wanted = some place := by
  cases run with
  | absent => exact found
  | placed _ placed =>
    obtain ⟨isFree, _, rfl⟩ := placeWritable_eq_ok.mp placed
    exact find?_names_withGlobal_of_free isFree found

theorem declaredNames_empty (generator : Generator) : generator.DeclaredNames [] .empty where
  toAllDeclared := allDeclared_empty generator
  names := fun _ _ found => by cases found
  taken := fun member => by cases member
  apart := fun member => by cases member

theorem FixedName.withEntry {registry : Registry} {name : String} {added : RecordEntry}
    (fixed : generator.FixedName registry name)
    (kept : ∀ entry, registry.find? id = some entry → entry.record.isSome = true →
      added.record.isSome = true) :
    generator.FixedName (registry.withEntry id added) name := by
  cases fixed with
  | record entered defined => exact .record (Registry.has_withEntry.mpr (.inr entered)) defined
  | @symbol other entry _ _ entered generated defined asked =>
    by_cases same : other = id
    · subst same
      exact .symbol (Registry.find?_withEntry_eq_some.mpr (.inl ⟨rfl, rfl⟩))
        (kept entry entered generated) defined asked
    · exact .symbol (Registry.find?_withEntry_eq_some.mpr (.inr ⟨same, entered⟩)) generated
        defined asked

namespace DeclareRun

variable {definition other : ClassDefinition} {extension : Option GlobalId}
  (run : generator.DeclareRun next definition extension before after)
include run

theorem find?_names {name : String} {place : GlobalId}
    (found : before.segment.names.find? name = some place) :
    after.segment.names.find? name = some place :=
  run.extensionPlaced.find?_names (find?_names_withGlobal_of_free run.nameFree found)

theorem find?_names_recordName :
    after.segment.names.find? (recordPrefix ++ definition.name.display) =
      some before.segment.nextId := by
  apply run.extensionPlaced.find?_names
  rw [find?_names_withGlobal]
  exact if_pos rfl

/-- A class declared by now was declared before, or in this step. -/
theorem mem_or_eq (member : id ∈ done ++ [next])
    (defined : generator.catalog.definition? id = some other) :
    id ∈ done ∨ (id = next ∧ other = definition) := by
  rcases List.mem_append.mp member with earlier | isNext
  · exact .inl earlier
  · rw [List.mem_singleton] at isNext
    subst isNext
    exact .inr ⟨rfl, Option.some.inj (defined.symm.trans run.defined)⟩

end DeclareRun

/-- The name of the next record was free, so no class declared before displays alike. -/
theorem DeclaredNames.display_ne (reached : generator.DeclaredNames done before)
    {definition other : ClassDefinition} {extension : Option GlobalId}
    (run : generator.DeclareRun next definition extension before after) (member : id ∈ done)
    (defined : generator.catalog.definition? id = some other) :
    other.name.display ≠ definition.name.display := by
  intro alike
  obtain ⟨place, found⟩ := reached.taken member defined
  rw [alike, run.nameFree] at found
  cases found

theorem DeclaredNames.step (reached : generator.DeclaredNames done before)
    {definition : ClassDefinition} {extension : Option GlobalId}
    (run : generator.DeclareRun next definition extension before after) :
    generator.DeclaredNames (done ++ [next]) after := by
  refine {
    toAllDeclared := reached.toAllDeclared.step run
    names := ?_
    taken := fun {id other} member defined => ?_
    apart := fun {first second firstDefinition secondDefinition} firstDone secondDone firstDefined
      secondDefined alike => ?_ }
  · have unentered : ∀ entry, before.registry.find? next = some entry →
        entry.record.isSome = true → (none : Option TypeRecord).isSome = true := by
      intro entry found
      rw [run.isNew] at found
      cases found
    rw [run.registered]
    apply run.extensionPlaced.namesFrom
    have known : before.segment.NamesFrom (generator.FixedName
        (before.registry.withEntry next ⟨before.segment.nextId, extension, none, none⟩)) :=
      reached.names.mono fun name fixed => fixed.withEntry unentered
    exact known.withGlobal (.inl (.record (Registry.has_withEntry.mpr (.inl rfl)) run.defined))
  · rcases run.mem_or_eq member defined with earlier | ⟨rfl, rfl⟩
    · obtain ⟨place, found⟩ := reached.taken earlier defined
      exact ⟨place, run.find?_names found⟩
    · exact ⟨_, run.find?_names_recordName⟩
  · rcases run.mem_or_eq firstDone firstDefined with firstEarlier | ⟨rfl, rfl⟩
    · rcases run.mem_or_eq secondDone secondDefined with secondEarlier | ⟨rfl, rfl⟩
      · exact reached.apart firstEarlier secondEarlier firstDefined secondDefined alike
      · exact absurd alike (reached.display_ne run firstEarlier firstDefined)
    · rcases run.mem_or_eq secondDone secondDefined with secondEarlier | ⟨rfl, rfl⟩
      · exact absurd alike.symm (reached.display_ne run secondEarlier secondDefined)
      · rfl

theorem declaredNames_of_declareAll {value : Unit}
    (ran : generator.declareAll classes .empty = .ok value declared) :
    generator.DeclaredNames classes declared :=
  declareAll_preserves ran generator.DeclaredNames (declaredNames_empty generator)
    fun reached run => reached.step run

/-- The first phase stops only where two classes display alike. -/
theorem nameClash_of_declareAll {failure : Failure}
    (distinct : classes.Nodup) (defined : ∀ id ∈ classes, generator.catalog.IsDefined id)
    (failed : generator.declareAll classes .empty = .error failure after) :
    ∃ fault, .fault fault = failure ∧ generator.NameClash fault := by
  obtain ⟨done, next, rest, middle, rfl, ran, stopped⟩ := Build.forM_eq_error failed
  have reached := declaredNames_of_declareAll ran
  have isNew : next ∉ done := by
    intro member
    rw [List.nodup_append] at distinct
    exact distinct.2.2 next member next List.mem_cons_self rfl
  obtain ⟨fault, same, stop⟩ := exists_declareStop (Build.discard_eq_error.mp stopped)
  refine ⟨fault, same, ?_⟩
  cases stop with
  | undefined asked =>
    obtain ⟨definition, found⟩ := defined next (by simp)
    rw [Catalog.definition_eq_ok.mpr found] at asked
    cases asked
  | entered found => exact absurd ((reached.entered next).mp ⟨_, found⟩) isNew
  | @nameTaken definition existing nextDefined taken =>
    have fixed := fixedName_of_recordName reached.names taken
    generalize named : recordPrefix ++ definition.name.display = name at fixed ⊢
    cases fixed with
    | @record other otherDefinition entered otherDefined =>
      have alike := (String.append_right_inj recordPrefix).mp named
      have apart : next ≠ other := by
        rintro rfl
        exact isNew ((reached.entered next).mp entered)
      rw [← named]
      exact .displays apart nextDefined otherDefined alike
    | symbol entered generated _ _ =>
      -- No record is generated in this phase.
      rw [reached.waiting entered] at generated
      cases generated

/-! ## The second phase -/

/-- The second phase with the names of what it has generated. -/
structure GeneratedNames (generator : Generator) (declared : Assembly) (done : List ClassId)
    (assembly : Assembly) : Prop extends generator.Generated declared done assembly where
  waiting : ∀ {id : ClassId} {entry : RecordEntry}, assembly.registry.find? id = some entry →
    id ∉ done → entry.record = none
  names : assembly.segment.NamesFrom (generator.FixedName assembly.registry)

theorem Exported.namesFrom {definition : ClassDefinition} {global : GlobalId}
    {exported : Option GlobalId} {start finish : Segment}
    (run : Exported definition global exported start finish) {others : String → Prop}
    (known : start.NamesFrom others)
    (symbol : ∀ symbol, definition.exportSymbol = some symbol → others symbol) :
    finish.NamesFrom others := by
  cases run with
  | absent => exact known
  | placed _ asked _ _ => exact known.withGlobal (.inl (symbol _ asked))

theorem GeneratedNames.step (graph : generator.catalog.SoundGraph)
    (order : generator.catalog.ClassOrder (done ++ next :: rest))
    (reached : generator.GeneratedNames declared done before) {entry : RecordEntry}
    {facts : RecordFacts} {parts : RecordParts} {exported : Option GlobalId}
    {prepared placed : Segment}
    (run : generator.RecordRun next entry facts parts exported prepared placed before after) :
    generator.GeneratedNames declared (done ++ [next]) after := by
  refine {
    toGenerated := reached.toGenerated.step graph order run
    waiting := fun {id present} found notDone => ?_
    names := ?_ }
  · rw [List.mem_append, List.mem_singleton, not_or] at notDone
    rcases run.find?_eq_some.mp found with ⟨isNext, _⟩ | ⟨_, known⟩
    · exact absurd isNext notDone.2
    · exact reached.waiting known notDone.1
  · have known : before.segment.NamesFrom (generator.FixedName after.registry) := by
      rw [run.registered]
      exact reached.names.mono fun name fixed => fixed.withEntry fun _ _ _ => rfl
    obtain ⟨_, declared, _, _, changed⟩ := Segment.placeRecord_eq_ok.mp run.recordPlaced
    have atPlaced : placed.NamesFrom (generator.FixedName after.registry) := by
      rw [← changed]
      have atPrepared := known.partsBegun run.partsPlaced.begun
      exact atPrepared
    refine run.addressExported.namesFrom atPlaced fun symbol asked => ?_
    exact .symbol (run.find?_eq_some.mpr (.inl ⟨rfl, rfl⟩)) rfl run.answers.definition asked

/-- The second phase may still be on its way through the order. -/
theorem generatedNames_of_generateAll {value : Unit} (graph : generator.catalog.SoundGraph)
    (order : generator.catalog.ClassOrder (done ++ rest))
    (start : generator.DeclaredNames classes declared)
    (ran : generator.generateAll done declared = .ok value after) :
    generator.GeneratedNames declared done after := by
  refine generateAll_preserves ran (generator.GeneratedNames declared) ?_ ?_
  · exact ⟨generated_start start.consistent, fun found _ => start.waiting found, start.names⟩
  · rintro earlier later next entry facts parts exported prepared placed middle reached rfl holds
      run
    rw [List.append_assoc, List.cons_append] at order
    exact holds.step graph order run

theorem faultless_recordVirtualTable (graph : generator.catalog.SoundGraph)
    (order : generator.catalog.ClassOrder classes) (isDefined : generator.catalog.IsDefined id)
    (definition : ClassDefinition) :
    Faultless (generator.recordVirtualTable id definition) := by
  unfold recordVirtualTable
  cases definition.isAbstract with
  | true => exact .ok none
  | false =>
    exact (Catalog.faultless_virtualTable graph order isDefined).bind fun _ _ => .ok _

/-- No question about a class of an accepted graph ends in a fault. -/
theorem not_unanswered_fault (graph : generator.catalog.SoundGraph)
    (order : generator.catalog.ClassOrder classes) (isDefined : generator.catalog.IsDefined id)
    (fault : Fault) : ¬ generator.Unanswered id (.fault fault) := by
  intro why
  cases why with
  | definition asked =>
    obtain ⟨definition, defined⟩ := isDefined
    rw [Catalog.definition_eq_ok.mpr defined] at asked
    cases asked
  | layout asked =>
    exact Catalog.faultless_instanceLayout graph order isDefined generator.target fault asked
  | supertype asked =>
    obtain ⟨definition, defined⟩ := isDefined
    rw [Catalog.supertype?_eq_ok defined] at asked
    cases asked
  | interfaces asked =>
    obtain ⟨found, answered, _⟩ := Catalog.exists_interfaces graph order isDefined
    rw [answered] at asked
    cases asked
  | methods _ asked => exact Catalog.faultless_methodTable graph order isDefined fault asked
  | reflected asked =>
    obtain ⟨name, answered⟩ := Catalog.exists_reflectedName graph isDefined
    rw [answered] at asked
    cases asked
  | virtualTable _ _ _ asked =>
    exact faultless_recordVirtualTable graph order isDefined _ fault asked

/-- The supertype and the interfaces of a class come before it in an order. -/
theorem mem_of_needed (graph : generator.catalog.SoundGraph)
    (order : generator.catalog.ClassOrder (done ++ next :: rest)) {other : ClassId}
    (needed : other = next ∨ generator.catalog.supertype? next = .ok (some other) ∨
      ∃ interfaces, generator.catalog.interfaces next = .ok interfaces ∧ other ∈ interfaces) :
    other ∈ done ++ next :: rest := by
  have isDefined : generator.catalog.IsDefined next := (order.complete next).mp (by simp)
  obtain ⟨definition, defined⟩ := isDefined
  rcases needed with rfl | above | ⟨interfaces, implemented, listed⟩
  · simp
  · rw [Catalog.supertype?_eq_ok defined, Except.ok.injEq] at above
    have precedes : generator.catalog.Precedes other next := ⟨definition, defined, .inl above⟩
    exact List.mem_append_left _ (order.mem_of_transGen (.single precedes))
  · obtain ⟨found, answered, reachable⟩ :=
      Catalog.exists_interfaces graph order ⟨definition, defined⟩
    rw [implemented] at answered
    cases answered
    exact List.mem_append_left _ (order.mem_of_transGen (reachable other listed))

/-- The record of an open entry can be placed once its parts are. -/
theorem RecordPrepared.exists_placed {entry : RecordEntry} {facts : RecordFacts}
    {parts : RecordParts} {prepared : Segment}
    (prepares : generator.RecordPrepared id entry facts parts prepared before)
    (consistent : before.Consistent generator) (isOpen : entry.record = none) :
    ∃ placed, Segment.placeRecord entry.global (parts.record facts) facts.virtualTable prepared =
      .ok ((), placed) := by
  obtain ⟨growth, held⟩ := prepares.partsPlaced.growth
  have held := held consistent.interned
  obtain ⟨definition, _, found⟩ := consistent.reserved prepares.entered isOpen
  refine ⟨_, Segment.placeRecord_eq_ok.mpr
    ⟨fun table listed => ?_, _, growth.extended.globals found, rfl, rfl⟩⟩
  have fields : prepared.checkTable "fields" (parts.record facts).fields = .ok () := by
    have held := held.fields
    show prepared.checkTable "fields" (if facts.definition.isInterface then _ else _) = _
    cases isInterface : facts.definition.isInterface with
    | true =>
      rw [RecordFacts.fields, if_pos isInterface] at held
      exact held.checkTable_notApplicable "fields"
    | false => exact held.checkTable_placed (List.length_map _) "fields"
  simp only [TypeRecord.tables, List.mem_cons, List.not_mem_nil, or_false] at listed
  rcases listed with rfl | rfl | rfl | rfl
  · exact held.traced.checkTable_placed (List.length_map _) _
  · exact held.interfaces.checkTable_placed (List.length_map _) _
  · exact held.methods.checkTable_placed (List.length_map _) _
  · exact fields

theorem nameClash_of_generateAll {fault : Fault} (graph : generator.catalog.SoundGraph)
    (order : generator.catalog.ClassOrder classes)
    (start : generator.DeclaredNames classes declared)
    (failed : generator.generateAll classes declared = .error (.fault fault) after) :
    generator.NameClash fault := by
  obtain ⟨done, next, rest, middle, rfl, ran, stopped⟩ := Build.forM_eq_error failed
  have reached := generatedNames_of_generateAll graph order start ran
  have isDefined : generator.catalog.IsDefined next := (order.complete next).mp (by simp)
  have isNew : next ∉ done := by
    intro member
    exact (List.nodup_append.mp order.distinct).2.2 next member next List.mem_cons_self rfl
  obtain ⟨segment, stop, _⟩ := exists_recordStop (Build.discard_eq_error.mp stopped)
  cases stop with
  | unanswered why _ => exact absurd why (not_unanswered_fault graph order isDefined fault)
  | undeclared absent needed _ =>
    obtain ⟨entry, found⟩ := (reached.entered _).mpr ((start.entered _).mpr
      (mem_of_needed graph order needed))
    rw [absent] at found
    cases found
  | textRefused refused begun =>
    obtain ⟨_, existing, taken, rfl⟩ := Segment.internString_eq_error refused
    have fixed := fixedName_of_stringName (reached.names.partsBegun begun) taken
    generalize named : stringName segment.strings.size = name at fixed ⊢
    cases fixed with
    | record =>
      have kind := initials_stringName segment.strings.size
      rw [named, initials_recordName] at kind
      cases kind
    | symbol _ _ defined asked =>
      subst named
      exact .symbol defined asked
  | recordRefused prepares refused =>
    obtain ⟨placed, succeeds⟩ := prepares.exists_placed reached.consistent
      (reached.waiting prepares.entered isNew)
    rw [succeeds] at refused
    cases refused
  | entryRefused prepares _ _ refused =>
    rw [Registry.complete_eq_ok.mpr ⟨_, prepares.entered,
      reached.waiting prepares.entered isNew, rfl⟩] at refused
    cases refused

end Generator

/-! ## Main results -/

variable {catalog : Catalog} {target : Target}

/-- Generating a module ends in a fault only where names clash. -/
theorem nameClash_of_generateModule {fault : Fault}
    (failed : generateModule catalog target = .error (.fault fault)) :
    (Generator.mk catalog target).NameClash fault := by
  rcases generateModule_eq_error failed with
    ⟨error, _, reported⟩ | ⟨classes, accepted, ⟨after, stopped⟩ | ⟨declared, after, ran, stopped⟩⟩
  · cases reported
  · have order := Catalog.classOrder_of_sortClasses accepted
    obtain ⟨other, same, clash⟩ := Generator.nameClash_of_declareAll order.distinct
      (fun id member => (order.complete id).mp member) stopped
    cases same
    exact clash
  · exact Generator.nameClash_of_generateAll (Catalog.soundGraph_of_sortClasses accepted)
      (Catalog.classOrder_of_sortClasses accepted) (Generator.declaredNames_of_declareAll ran)
      stopped

/-- Where two classes display alike, it does. -/
theorem exists_fault_of_alike {classes : List ClassId}
    (accepted : catalog.sortClasses = .ok classes)
    {first second : ClassId} {firstDefinition secondDefinition : ClassDefinition}
    (apart : first ≠ second) (firstDefined : catalog.definition? first = some firstDefinition)
    (secondDefined : catalog.definition? second = some secondDefinition)
    (alike : firstDefinition.name.display = secondDefinition.name.display) :
    ∃ fault, generateModule catalog target = .error (.fault fault) := by
  have order := Catalog.classOrder_of_sortClasses accepted
  have undeclarable : ∀ declared,
      (Generator.mk catalog target).declareAll classes .empty ≠ .ok () declared := by
    intro declared ran
    have reached := Generator.declaredNames_of_declareAll ran
    exact apart (reached.apart ((order.complete first).mpr ⟨_, firstDefined⟩)
      ((order.complete second).mpr ⟨_, secondDefined⟩) firstDefined secondDefined alike)
  cases ended : generateModule catalog target with
  | ok assembly =>
    obtain ⟨others, declared, sorted, ran, _⟩ := generateModule_eq_ok.mp ended
    cases accepted.symm.trans sorted
    exact absurd ran (undeclarable declared)
  | error failure =>
    rcases generateModule_eq_error ended with
      ⟨error, refused, _⟩ | ⟨others, sorted, ⟨after, stopped⟩ | ⟨declared, after, ran, _⟩⟩
    · rw [accepted] at refused
      cases refused
    · cases accepted.symm.trans sorted
      obtain ⟨fault, rfl, _⟩ := Generator.nameClash_of_declareAll order.distinct
        (fun id member => (order.complete id).mp member) stopped
      exact ⟨fault, rfl⟩
    · cases accepted.symm.trans sorted
      exact absurd ran (undeclarable declared)

namespace Catalog

/-- Two classes, one below the other, whose names have different parts and display alike. -/
def alikeNames : Catalog where
  classes := .ofList [(.root, bareClass ["Any"] none none),
    (⟨1⟩, bareClass ["demo", "Shape"] none none), (⟨2⟩, bareClass ["demo.Shape"] (some ⟨1⟩) none)]
  functions := .empty
  valueBoxes := .empty

/-- A class with the name of the fourth string as its symbol, and a class below it whose name is
that string. -/
def stringSymbol : Catalog where
  classes := .ofList [(.root, bareClass ["Any"] none none),
    (⟨1⟩, bareClass ["First"] none (some "kstr:3")), (⟨2⟩, bareClass ["Second"] (some ⟨1⟩) none)]
  functions := .empty
  valueBoxes := .empty

end Catalog

/-- Whether a build ends in this failure can be decided without its result. -/
theorem generateModule_eq_error_of_map {failure : Failure}
    (ended : (generateModule catalog target).map (fun _ => ()) = .error failure) :
    generateModule catalog target = .error failure := by
  cases result : generateModule catalog target with
  | ok assembly =>
    rw [result] at ended
    cases ended
  | error stopped =>
    rw [result] at ended
    cases ended
    rfl

theorem alikeNames_nameClash :
    generateModule Catalog.alikeNames .iphone =
        .error (.fault (.globalNameTaken "ktype:demo.Shape" ⟨2⟩)) ∧
      (Generator.mk Catalog.alikeNames .iphone).NameClash
        (.globalNameTaken "ktype:demo.Shape" ⟨2⟩) := by
  have failed : generateModule Catalog.alikeNames .iphone =
      .error (.fault (.globalNameTaken "ktype:demo.Shape" ⟨2⟩)) :=
    generateModule_eq_error_of_map (by decide +kernel)
  exact ⟨failed, nameClash_of_generateModule failed⟩

/-- The symbol of a class can take the name of a string. -/
theorem not_faultless_generateModule :
    ¬ ∀ catalog target, Faultless (generateModule catalog target) := by
  intro faultless
  have failed : generateModule Catalog.stringSymbol .iphone =
      .error (.fault (.globalNameTaken "kstr:3" ⟨17⟩)) :=
    generateModule_eq_error_of_map (by decide +kernel)
  exact faultless Catalog.stringSymbol .iphone _ failed

end TypeRecords
