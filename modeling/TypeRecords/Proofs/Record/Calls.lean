import TypeRecords.Proofs.Record.Adapter
import TypeRecords.Proofs.Record.Reported

/-!
Sequences of calls on one assembly.

Owns the agreement of the two stores of an assembly. The registry says which records are generated,
and the segment which record globals are defined. A call that declares a record, or stands in for an
interface, changes neither answer for the classes entered before. A call that generates a record
changes both, unless it is refused. If it is refused because its symbol is taken, the record stays
in the segment and the registry does not know of it; with any other error both stay as they were.
-/

namespace TypeRecords

/-! ## Calls -/

/-- A request to an assembly. -/
inductive Call where
  | declare (id : ClassId)
  | generate (id : ClassId)
  | adapt (interface : ClassId) (overrides : List Override)
deriving DecidableEq, Repr

namespace Generator

def perform (generator : Generator) : Call → Build GlobalId
  | .declare id => generator.declareRecord id
  | .generate id => generator.generateRecord id
  | .adapt interface overrides => generator.generateAdapter interface overrides

/-- Makes one call. One that reports an error leaves what it has placed. -/
def attempt (generator : Generator) (call : Call) (assembly : Assembly) :
    Except Fault (Except RecordError GlobalId × Assembly) :=
  match generator.perform call assembly with
  | .ok global after => .ok (.ok global, after)
  | .error (.reported error) after => .ok (.error error, after)
  | .error (.fault fault) _ => .error fault

/-- Makes calls one after the other, and lists them with their results. A fault ends them, an error
does not. -/
def attemptAll (generator : Generator) :
    List Call → Assembly → Except Fault (List (Call × Except RecordError GlobalId) × Assembly)
  | [], assembly => .ok ([], assembly)
  | call :: rest, assembly => do
    let (result, after) ← generator.attempt call assembly
    let (results, finish) ← generator.attemptAll rest after
    return ((call, result) :: results, finish)

variable {generator : Generator} {call : Call} {calls : List Call}
  {before after finish : Assembly} {result : Except RecordError GlobalId}
  {results : List (Call × Except RecordError GlobalId)}

theorem attempt_eq_ok :
    generator.attempt call before = .ok (result, after) ↔
      (∃ global, generator.perform call before = .ok global after ∧ .ok global = result) ∨
        ∃ error, generator.perform call before = .error (.reported error) after ∧
          .error error = result := by
  unfold attempt
  cases generator.perform call before with
  | ok global reached => simp [and_comm]
  | error failure reached => cases failure <;> simp [and_comm]

/-- What each call preserves holds after all of them. The property may speak about the results so
far. -/
theorem attemptAll_preserves
    (ran : generator.attemptAll calls before = .ok (results, finish))
    (holds : List (Call × Except RecordError GlobalId) → Assembly → Prop) (start : holds [] before)
    (each : ∀ {done call result middle reached}, holds done middle →
      generator.attempt call middle = .ok (result, reached) →
        holds (done ++ [(call, result)]) reached) : holds results finish := by
  have fromDone : ∀ (calls : List Call) (done results : List (Call × Except RecordError GlobalId))
      (middle : Assembly), holds done middle →
        generator.attemptAll calls middle = .ok (results, finish) →
          holds (done ++ results) finish := by
    intro calls
    induction calls with
    | nil =>
      intro done results middle reached finished
      cases finished
      rw [List.append_nil]
      exact reached
    | cons call rest inductionHypothesis =>
      intro done results middle reached continued
      obtain ⟨⟨result, later⟩, made, remaining⟩ := Outcome.bind_eq_ok.mp continued
      obtain ⟨⟨others, last⟩, madeAll, built⟩ := Outcome.bind_eq_ok.mp remaining
      cases Outcome.pure_eq_ok.mp built
      rw [List.append_cons]
      exact inductionHypothesis _ others later (each reached made) madeAll
  exact fromDone calls [] results before start ran

end Generator

/-! ## Agreement -/

/-- How the two stores agree, where the symbols of some classes were refused. -/
structure Agreement (generator : Generator) (refused : ClassId → Prop) (assembly : Assembly) :
    Prop where
  distinct : assembly.registry.GlobalsDistinct
  present : ∀ {id : ClassId} {entry : RecordEntry}, assembly.registry.find? id = some entry →
    ∃ global, assembly.segment.get? entry.global = some global
  agrees : ∀ {id : ClassId} {entry : RecordEntry}, assembly.registry.find? id = some entry →
    (assembly.segment.IsInitialized entry.global ↔ entry.record.isSome = true ∨ refused id)
  exclusive : ∀ {id : ClassId} {entry : RecordEntry}, assembly.registry.find? id = some entry →
    refused id → entry.record = none
  entered : ∀ {id : ClassId}, refused id → assembly.registry.Has id
  /-- Only a class about which everything was answered gets as far as its symbol. -/
  answered : ∀ {id : ClassId} {entry : RecordEntry}, assembly.registry.find? id = some entry →
    entry.record.isSome = true ∨ refused id → ∃ facts, generator.Answers id facts

namespace Agreement

open Generator

variable {generator : Generator} {refused : ClassId → Prop} {id : ClassId}
  {before after : Assembly}

theorem empty (generator : Generator) : Agreement generator (fun _ => False) .empty where
  distinct := fun _ _ _ _ found => by cases found
  present := fun found => by cases found
  agrees := fun found => by cases found
  exclusive := fun found => by cases found
  entered := fun impossible => impossible.elim
  answered := fun found => by cases found

/-- What is placed beside the records changes nothing. -/
theorem grow (agreement : Agreement generator refused before) {segment : Segment}
    (growth : Segment.Growth before.segment segment) :
    Agreement generator refused { before with segment } := by
  refine { agreement with
    present := fun {other entry} found => ?_
    agrees := fun {other entry} found => ?_ }
  · obtain ⟨global, located⟩ := agreement.present found
    exact ⟨global, growth.extended.globals located⟩
  · obtain ⟨global, located⟩ := agreement.present found
    exact (growth.isInitialized_iff located).trans (agreement.agrees found)

theorem declare (agreement : Agreement generator refused before) {definition : ClassDefinition}
    {extension : Option GlobalId}
    (run : generator.DeclareRun id definition extension before after) :
    Agreement generator refused after := by
  have unrefused : ¬ refused id := by
    intro isRefused
    obtain ⟨entry, found⟩ := agreement.entered isRefused
    rw [run.isNew] at found
    cases found
  have newGlobal := run.get?_nextId
  refine {
    distinct := ?_
    present := fun {other entry} found => ?_
    agrees := fun {other entry} found => ?_
    exclusive := fun {other entry} found isRefused => ?_
    entered := fun {other} isRefused => ?_
    answered := fun {other entry} found reached => ?_ }
  · rw [run.registered]
    refine agreement.distinct.withEntry fun other entry _ known => ?_
    obtain ⟨global, located⟩ := agreement.present known
    exact Segment.ne_nextId_of_get? located
  · rcases run.find?_eq_some.mp found with ⟨_, rfl⟩ | ⟨_, known⟩
    · exact ⟨_, newGlobal⟩
    · obtain ⟨global, located⟩ := agreement.present known
      exact ⟨global, run.extended.globals located⟩
  · rcases run.find?_eq_some.mp found with ⟨rfl, rfl⟩ | ⟨_, known⟩
    · have undefined : ¬ after.segment.IsInitialized before.segment.nextId := by
        rintro ⟨value, held⟩
        rw [Segment.initial?, newGlobal] at held
        cases held
      simp [undefined, unrefused]
    · rw [← agreement.agrees known]
      obtain ⟨global, located⟩ := agreement.present known
      have same := (run.extended.globals located).trans located.symm
      simp only [Segment.IsInitialized, Segment.initial?, same]
  · rcases run.find?_eq_some.mp found with ⟨_, rfl⟩ | ⟨_, known⟩
    · rfl
    · exact agreement.exclusive known isRefused
  · rw [run.registered]
    exact Registry.has_withEntry.mpr (.inr (agreement.entered isRefused))
  · rcases run.find?_eq_some.mp found with ⟨rfl, rfl⟩ | ⟨_, known⟩
    · simp [unrefused] at reached
    · exact agreement.answered known reached

/-! ### Placing a record -/

section Placing

variable {entry : RecordEntry} {facts : RecordFacts} {parts : RecordParts}
  {prepared placed finish : Segment}

/-- A record is placed where its global was there and not defined. -/
theorem not_isInitialized_of_placed (agreement : Agreement generator refused before)
    (prepares : generator.RecordPrepared id entry facts parts prepared before)
    (recordPlaced : Segment.placeRecord entry.global (parts.record facts) facts.virtualTable
      prepared = .ok ((), placed)) : ¬ before.segment.IsInitialized entry.global := by
  obtain ⟨_, declared, found, isOpen, _⟩ := Segment.placeRecord_eq_ok.mp recordPlaced
  obtain ⟨global, located⟩ := agreement.present prepares.entered
  rw [← prepares.partsPlaced.growth.1.isInitialized_iff located]
  rintro ⟨value, held⟩
  rw [Segment.initial?, found] at held
  rw [show (some declared).bind Global.initial = declared.initial from rfl, isOpen] at held
  cases held

/-- Then the global of the record is defined, and those of other records are as they were. -/
theorem isInitialized_of_placed
    (prepares : generator.RecordPrepared id entry facts parts prepared before)
    (recordPlaced : Segment.placeRecord entry.global (parts.record facts) facts.virtualTable
      prepared = .ok ((), placed)) (growth : Segment.Growth placed finish) {place : GlobalId}
    {global : Global} (located : before.segment.get? place = some global) :
    (∃ global, finish.get? place = some global) ∧
      (finish.IsInitialized place ↔ place = entry.global ∨ before.segment.IsInitialized place) := by
  obtain ⟨_, declared, found, _, changed⟩ := Segment.placeRecord_eq_ok.mp recordPlaced
  have grown := prepares.partsPlaced.growth.1
  have atPlaced : ∃ global, placed.get? place = some global := by
    rw [← changed, Segment.get?_withChanged found]
    split
    · exact ⟨_, rfl⟩
    · exact ⟨global, grown.extended.globals located⟩
  obtain ⟨kept, keptFound⟩ := atPlaced
  refine ⟨⟨kept, growth.extended.globals keptFound⟩, ?_⟩
  rw [growth.isInitialized_iff keptFound, ← grown.isInitialized_iff located]
  by_cases same : place = entry.global
  · simp [Segment.IsInitialized, ← changed, Segment.initial?_withChanged found, same,
      Segment.completedGlobal]
  · simp [Segment.IsInitialized, ← changed, Segment.initial?_withChanged found, same]

theorem generate (agreement : Agreement generator refused before) {exported : Option GlobalId}
    (run : generator.RecordRun id entry facts parts exported prepared placed before after) :
    Agreement generator refused after := by
  have wasOpen := agreement.not_isInitialized_of_placed run.toRecordPrepared run.recordPlaced
  have unrefused : ¬ refused id :=
    fun isRefused => wasOpen ((agreement.agrees run.entered).mpr (.inr isRefused))
  have effect {place : GlobalId} {global : Global}
      (located : before.segment.get? place = some global) :=
    isInitialized_of_placed run.toRecordPrepared run.recordPlaced run.addressExported.growth located
  refine {
    distinct := ?_
    present := fun {other present} found => ?_
    agrees := fun {other present} found => ?_
    exclusive := fun {other present} found isRefused => ?_
    entered := fun {other} isRefused => ?_
    answered := fun {other present} found reached => ?_ }
  · rw [run.registered]
    exact agreement.distinct.withEntry fun other present differs known same =>
      differs (agreement.distinct other id present entry known run.entered same)
  · rcases run.find?_eq_some.mp found with ⟨_, rfl⟩ | ⟨_, known⟩
    · obtain ⟨global, located⟩ := agreement.present run.entered
      exact (effect located).1
    · obtain ⟨global, located⟩ := agreement.present known
      exact (effect located).1
  · rcases run.find?_eq_some.mp found with ⟨rfl, rfl⟩ | ⟨differs, known⟩
    · obtain ⟨global, located⟩ := agreement.present run.entered
      rw [(effect located).2]
      simp
    · obtain ⟨global, located⟩ := agreement.present known
      have apart : present.global ≠ entry.global :=
        fun same => differs (agreement.distinct other id present entry known run.entered same)
      rw [(effect located).2, ← agreement.agrees known]
      simp [apart]
  · rcases run.find?_eq_some.mp found with ⟨rfl, _⟩ | ⟨_, known⟩
    · exact absurd isRefused unrefused
    · exact agreement.exclusive known isRefused
  · rw [run.registered]
    exact Registry.has_withEntry.mpr (.inr (agreement.entered isRefused))
  · rcases run.find?_eq_some.mp found with ⟨rfl, rfl⟩ | ⟨_, known⟩
    · exact ⟨facts, run.answers⟩
    · exact agreement.answered known reached

/-- Where the symbol is taken, the class is one of the refused from then on. -/
theorem refuse (agreement : Agreement generator refused before)
    (prepares : generator.RecordPrepared id entry facts parts prepared before)
    (recordPlaced : Segment.placeRecord entry.global (parts.record facts) facts.virtualTable
      prepared = .ok ((), placed)) :
    Agreement generator (fun other => refused other ∨ other = id)
      { before with segment := placed } := by
  have wasOpen := agreement.not_isInitialized_of_placed prepares recordPlaced
  have ungenerated : entry.record = none := by
    by_contra isGenerated
    rw [agreement.agrees prepares.entered] at wasOpen
    exact wasOpen (.inl (Option.isSome_iff_ne_none.mpr isGenerated))
  have effect {place : GlobalId} {global : Global}
      (located : before.segment.get? place = some global) :=
    isInitialized_of_placed prepares recordPlaced (.refl placed) located
  refine { agreement with
    present := fun {other present} known => ?_
    agrees := fun {other present} known => ?_
    exclusive := fun {other present} known isRefused => ?_
    entered := fun {other} isRefused => ?_
    answered := fun {other present} known reached => ?_ }
  · obtain ⟨global, located⟩ := agreement.present known
    exact (effect located).1
  · obtain ⟨global, located⟩ := agreement.present known
    rw [(effect located).2, agreement.agrees known]
    have sameGlobal : present.global = entry.global ↔ other = id := by
      constructor
      · exact agreement.distinct other id present entry known prepares.entered
      · rintro rfl
        cases known.symm.trans prepares.entered
        rfl
    rw [sameGlobal]
    tauto
  · by_cases same : other = id
    · subst same
      cases known.symm.trans prepares.entered
      exact ungenerated
    · exact agreement.exclusive known (isRefused.resolve_right same)
  · rcases isRefused with earlier | rfl
    · exact agreement.entered earlier
    · exact ⟨entry, prepares.entered⟩
  · by_cases same : other = id
    · subst same
      exact ⟨facts, prepares.answers⟩
    · apply agreement.answered known
      rcases reached with isGenerated | earlier | isSame
      · exact .inl isGenerated
      · exact .inr earlier
      · exact absurd isSame same

end Placing

/-- A class about which something is not answered is neither generated nor refused. -/
theorem unanswered (agreement : Agreement generator refused before) {entry : RecordEntry}
    (found : before.registry.find? id = some entry) {error : RecordError}
    (why : generator.Unanswered id (.reported error)) :
    entry.record = none ∧ ¬ before.segment.IsInitialized entry.global := by
  have contradicted : ¬ (entry.record.isSome = true ∨ refused id) := by
    intro reached
    obtain ⟨facts, answers⟩ := agreement.answered found reached
    exact answers.not_unanswered why
  refine ⟨?_, ?_⟩
  · simpa using fun isGenerated => contradicted (.inl isGenerated)
  · rw [agreement.agrees found]
    exact contradicted

end Agreement

/-! ## Main results -/

/-- Whether the symbol of a class was refused, so that its record is placed and not entered. -/
def SymbolRefused (results : List (Call × Except RecordError GlobalId)) (id : ClassId) : Prop :=
  ∃ className symbol, (Call.generate id, .error (.duplicateExport className symbol)) ∈ results

section Results

open Generator

variable {generator : Generator} {id : ClassId} {before after : Assembly}
  {done : List (Call × Except RecordError GlobalId)}

theorem symbolRefused_append {call : Call} {result : Except RecordError GlobalId} :
    SymbolRefused (done ++ [(call, result)]) id ↔
      SymbolRefused done id ∨ (call = .generate id ∧
        ∃ className symbol, result = .error (.duplicateExport className symbol)) := by
  unfold SymbolRefused
  simp only [List.mem_append, List.mem_singleton, Prod.mk.injEq]
  constructor
  · rintro ⟨className, symbol, earlier | ⟨same, refused⟩⟩
    · exact .inl ⟨className, symbol, earlier⟩
    · exact .inr ⟨same.symm, className, symbol, refused.symm⟩
  · rintro (⟨className, symbol, earlier⟩ | ⟨rfl, className, symbol, rfl⟩)
    · exact ⟨className, symbol, .inl earlier⟩
    · exact ⟨className, symbol, .inr ⟨rfl, rfl⟩⟩

theorem symbolRefused_append_of_not {call : Call} {result : Except RecordError GlobalId}
    (other : ∀ id className symbol,
      call = .generate id → result ≠ .error (.duplicateExport className symbol)) :
    SymbolRefused (done ++ [(call, result)]) = SymbolRefused done := by
  funext id
  rw [symbolRefused_append, eq_iff_iff, or_iff_left]
  rintro ⟨sameCall, className, symbol, sameResult⟩
  exact other id className symbol sameCall sameResult

/-- What a refused call to generate a record leaves: its class is not generated, and its global is
defined exactly if its symbol was taken. -/
def LeftUngenerated (assembly : Assembly) (id : ClassId) (error : RecordError) : Prop :=
  ∀ {entry : RecordEntry}, assembly.registry.find? id = some entry → entry.record = none ∧
    (assembly.segment.IsInitialized entry.global ↔
      ∃ className symbol, error = .duplicateExport className symbol)

theorem Agreement.refusedCall (agreement : Agreement generator (SymbolRefused done) before)
    {error : RecordError}
    (ran : generator.generateRecord id before = .error (.reported error) after) :
    Agreement generator (SymbolRefused (done ++ [(.generate id, .error error)])) after ∧
      LeftUngenerated after id error := by
  obtain ⟨segment, stop, rfl⟩ := exists_recordStop ran
  cases stop with
  | unanswered why begun =>
    have member := why.memberError
    have other : ∀ className symbol, error ≠ .duplicateExport className symbol := by
      rintro className symbol rfl
      cases member
    constructor
    · rw [symbolRefused_append_of_not
        (by simpa using fun _ className symbol _ => other className symbol)]
      exact agreement.grow begun.growth
    · intro entry found
      obtain ⟨ungenerated, undefined⟩ := agreement.unanswered found why
      obtain ⟨global, located⟩ := agreement.present found
      refine ⟨ungenerated, ?_⟩
      rw [begun.growth.isInitialized_iff located]
      simp [undefined, other]
  | @symbolTaken entry facts _ _ _ symbol _ prepares recordPlaced asked taken =>
    have refused := agreement.refuse prepares recordPlaced
    have same : SymbolRefused (done ++ [(.generate id,
        .error (.duplicateExport facts.definition.name symbol))]) =
          fun other => SymbolRefused done other ∨ other = id := by
      funext other
      rw [symbolRefused_append]
      simp [eq_comm]
    rw [same]
    refine ⟨refused, fun {present} found => ?_⟩
    have isRefused : SymbolRefused done id ∨ id = id := .inr rfl
    refine ⟨refused.exclusive found isRefused, ?_⟩
    rw [refused.agrees found]
    simp

/-- Every call that is no fault keeps the agreement. -/
theorem Agreement.call (agreement : Agreement generator (SymbolRefused done) before) {call : Call}
    {result : Except RecordError GlobalId}
    (made : generator.attempt call before = .ok (result, after)) :
    Agreement generator (SymbolRefused (done ++ [(call, result)])) after ∧
      ∀ id error, call = .generate id → result = .error error → LeftUngenerated after id error := by
  rcases attempt_eq_ok.mp made with ⟨global, ran, rfl⟩ | ⟨error, ran, rfl⟩
  · refine ⟨?_, fun id error _ same => by cases same⟩
    rw [symbolRefused_append_of_not (by simp)]
    cases call with
    | declare id =>
      obtain ⟨definition, extension, run⟩ := exists_declareRun ran
      exact agreement.declare run
    | generate id =>
      obtain ⟨entry, facts, parts, exported, prepared, placed, run⟩ := exists_recordRun ran
      exact agreement.generate run
    | adapt interface overrides =>
      have ending := generator.adapterEnding interface overrides before
      rw [show generator.generateAdapter interface overrides before = _ from ran] at ending
      cases ending with
      | generated run => exact agreement.grow run.growth
  · cases call with
    | declare id =>
      obtain ⟨fault, same, _⟩ := exists_declareStop ran
      cases same
    | generate id =>
      obtain ⟨kept, left⟩ := agreement.refusedCall ran
      refine ⟨kept, fun other reported sameCall sameError => ?_⟩
      cases sameCall
      cases sameError
      exact left
    | adapt interface overrides =>
      refine ⟨?_, fun _ _ sameCall => by cases sameCall⟩
      have ending := generator.adapterEnding interface overrides before
      rw [show generator.generateAdapter interface overrides before = _ from ran] at ending
      cases ending with
      | stopped stop =>
        rw [symbolRefused_append_of_not (by simp)]
        exact agreement.grow stop.growth

/-- What holds after calls with these results. -/
structure Accounted (generator : Generator)
    (results : List (Call × Except RecordError GlobalId)) (assembly : Assembly) : Prop where
  agreement : Agreement generator (SymbolRefused results) assembly
  last : ∀ {earlier : List (Call × Except RecordError GlobalId)} {id : ClassId}
    {error : RecordError}, results = earlier ++ [(.generate id, .error error)] →
      LeftUngenerated assembly id error

theorem accounted_of_attemptAll {calls : List Call} {assembly : Assembly}
    {results : List (Call × Except RecordError GlobalId)}
    (ran : generator.attemptAll calls .empty = .ok (results, assembly)) :
    Accounted generator results assembly := by
  apply attemptAll_preserves ran (Accounted generator)
  · have noneRefused : SymbolRefused [] = fun _ => False := by
      funext id
      simp [SymbolRefused]
    refine ⟨?_, fun same => by simp at same⟩
    rw [noneRefused]
    exact .empty generator
  · intro done call result middle reached holds made
    obtain ⟨kept, left⟩ := holds.agreement.call made
    refine ⟨kept, fun {earlier id error} same => ?_⟩
    obtain ⟨_, last⟩ := List.append_inj' same rfl
    simp only [List.cons.injEq, Prod.mk.injEq, and_true] at last
    exact left id error last.1 last.2

/-- After any calls that are no faults, the record global of an entered class is defined exactly if
its record is generated or its symbol was refused, and not both. A call that was refused leaves its
class ungenerated. -/
theorem record_isSome_iff_isInitialized {calls : List Call} {assembly : Assembly}
    {results : List (Call × Except RecordError GlobalId)}
    (ran : generator.attemptAll calls .empty = .ok (results, assembly)) {entry : RecordEntry}
    (entered : assembly.registry.find? id = some entry) :
    (assembly.segment.IsInitialized entry.global ↔
      entry.record.isSome = true ∨ SymbolRefused results id) ∧
    ¬ (entry.record.isSome = true ∧ SymbolRefused results id) ∧
    ∀ earlier error, results = earlier ++ [(.generate id, .error error)] →
      entry.record = none ∧ (assembly.segment.IsInitialized entry.global ↔
        ∃ className symbol, error = .duplicateExport className symbol) := by
  have holds := accounted_of_attemptAll ran
  refine ⟨holds.agreement.agrees entered, ?_, fun earlier error last => holds.last last entered⟩
  rintro ⟨isGenerated, isRefused⟩
  rw [holds.agreement.exclusive entered isRefused] at isGenerated
  cases isGenerated

end Results

/-- Two classes, one below the other, that ask for one symbol. -/
def Catalog.sharedSymbol : Catalog where
  classes := .ofList [(.root, bareClass ["Any"] none none),
    (⟨1⟩, bareClass ["First"] none (some "record")),
    (⟨2⟩, bareClass ["Second"] (some ⟨1⟩) (some "record"))]
  functions := .empty
  valueBoxes := .empty

/-- All three classes are declared and then generated. -/
def sharedSymbolCalls : List Call :=
  [.declare .root, .declare ⟨1⟩, .declare ⟨2⟩, .generate .root, .generate ⟨1⟩, .generate ⟨2⟩]

/-- The last call is refused and leaves a record that is defined and not entered. -/
theorem exists_attemptAll_sharedSymbol :
    ∃ results assembly entry,
      (Generator.mk Catalog.sharedSymbol .iphone).attemptAll sharedSymbolCalls .empty =
        .ok (results, assembly) ∧
      assembly.registry.find? ⟨2⟩ = some entry ∧ entry.record.isSome = false ∧
      assembly.segment.IsInitialized entry.global := by
  have computed : (match (Generator.mk Catalog.sharedSymbol .iphone).attemptAll sharedSymbolCalls
      .empty with
    | .ok (_, assembly) => (assembly.registry.find? ⟨2⟩).any fun entry =>
        !entry.record.isSome && (assembly.segment.initial? entry.global).isSome
    | .error _ => false) = true := by
    decide +kernel
  cases ran : (Generator.mk Catalog.sharedSymbol .iphone).attemptAll sharedSymbolCalls .empty with
  | error fault =>
    rw [ran] at computed
    cases computed
  | ok reached =>
    obtain ⟨results, assembly⟩ := reached
    simp only [ran, Option.any_eq_true, Bool.and_eq_true, Bool.not_eq_true'] at computed
    obtain ⟨entry, found, ungenerated, defined⟩ := computed
    exact ⟨results, assembly, entry, rfl, found, ungenerated, Option.isSome_iff_exists.mp defined⟩

theorem sharedSymbol_symbolRefused :
    ∃ results assembly entry,
      (Generator.mk Catalog.sharedSymbol .iphone).attemptAll sharedSymbolCalls .empty =
        .ok (results, assembly) ∧
      assembly.registry.find? ⟨2⟩ = some entry ∧ SymbolRefused results ⟨2⟩ := by
  obtain ⟨results, assembly, entry, ran, found, ungenerated, defined⟩ :=
    exists_attemptAll_sharedSymbol
  have agrees := (record_isSome_iff_isInitialized ran found).1.mp defined
  refine ⟨results, assembly, entry, ran, found, agrees.resolve_left ?_⟩
  rw [ungenerated]
  simp

/-- The two stores can disagree about a class of an accepted graph. -/
theorem not_isInitialized_iff_record_isSome :
    ¬ ∀ (catalog : Catalog) (classes : List ClassId) (target : Target) (calls : List Call)
      (results : List (Call × Except RecordError GlobalId)) (assembly : Assembly) (id : ClassId)
      (entry : RecordEntry), catalog.sortClasses = .ok classes →
        (Generator.mk catalog target).attemptAll calls .empty = .ok (results, assembly) →
          assembly.registry.find? id = some entry →
            (assembly.segment.IsInitialized entry.global ↔ entry.record.isSome = true) := by
  intro agree
  obtain ⟨results, assembly, entry, ran, found, ungenerated, defined⟩ :=
    exists_attemptAll_sharedSymbol
  have accepted : Catalog.sharedSymbol.sortClasses = .ok [ClassId.root, ⟨1⟩, ⟨2⟩] := by
    decide +kernel
  have generated := (agree _ _ _ _ results assembly _ entry accepted ran found).mp defined
  rw [ungenerated] at generated
  cases generated

end TypeRecords
