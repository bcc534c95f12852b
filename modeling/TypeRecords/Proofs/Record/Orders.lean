import TypeRecords.Proofs.Record.Calls
import TypeRecords.Proofs.Record.Content
import TypeRecords.Proofs.Record.Module

/-!
Calls in any order.

Owns the independence of the records from the order of the calls. The numbers of globals and some of
their names depend on it, and so does which string is placed first. But each record ends up with
the content its class asks for, and what a call adds besides does not depend on what is there: it
adds its globals, and its texts to the strings. So two runs that make the same calls in different
orders agree on all contents, on the number of globals and on the strings.
-/

namespace TypeRecords

/-! ## What is added to a segment -/

namespace Segment

/-- Whether so many globals were added besides strings, and these texts interned. -/
structure Adds (start finish : Segment) (count : Nat) (added : String → Prop) : Prop where
  size : finish.size + start.strings.size = start.size + count + finish.strings.size
  texts : ∀ text, text ∈ finish.strings.keys ↔ text ∈ start.strings.keys ∨ added text

namespace Adds

variable {start middle finish : Segment} {first second : Nat} {earlier later : String → Prop}

theorem refl (segment : Segment) : Adds segment segment 0 fun _ => False :=
  ⟨by simp, fun text => by simp⟩

theorem trans (before : Adds start middle first earlier) (after : Adds middle finish second later) :
    Adds start finish (first + second) fun text => earlier text ∨ later text := by
  constructor
  · have sizeBefore := before.size
    have sizeAfter := after.size
    omega
  · intro text
    rw [after.texts, before.texts, or_assoc]

theorem withGlobal (segment : Segment) (global : Global) :
    Adds segment (segment.withGlobal global) 1 fun _ => False := by
  constructor
  · simp [Segment.size, Segment.withGlobal]
  · intro text
    simp [Segment.withGlobal]

theorem withChanged (segment : Segment) (id : GlobalId) (global : Global) :
    Adds segment (segment.withChanged id global) 0 fun _ => False := by
  constructor
  · simp [Segment.size, Segment.withChanged]
  · intro text
    simp [Segment.withChanged]

theorem congr (adds : Adds start finish first earlier) {count : Nat} {added : String → Prop}
    (sameCount : first = count) (sameTexts : ∀ text, earlier text ↔ added text) :
    Adds start finish count added := by
  subst sameCount
  exact ⟨adds.size, fun text => by rw [adds.texts, sameTexts]⟩

theorem placeArray {name : String} {element : DataType} {items : List Constant} {id : GlobalId}
    (placed : placeArray name element items start = .ok (id, finish)) :
    Adds start finish 1 fun _ => False := by
  obtain ⟨_, _, rfl⟩ := placeArray_eq_ok.mp placed
  exact withGlobal start _

theorem internString {text : String} {id : GlobalId}
    (interned : internString text start = .ok (id, finish)) :
    Adds start finish 0 (· = text) := by
  rcases internString_eq_ok.mp interned with ⟨known, rfl⟩ | ⟨isNew, _, rfl, rfl⟩
  · refine ⟨by simp, fun other => ?_⟩
    have present : text ∈ start.strings.keys := OrderedMap.mem_keys_iff.mpr ⟨id, known⟩
    rw [or_iff_left_of_imp]
    rintro rfl
    exact present
  · have larger : (start.strings.insert text start.nextId).size = start.strings.size + 1 :=
      OrderedMap.size_insert isNew start.nextId
    constructor
    · show (start.globals ++ [_]).length + start.strings.size =
        start.globals.length + 0 + (start.strings.insert text start.nextId).size
      rw [List.length_append, List.length_singleton, larger]
      omega
    · intro other
      show other ∈ (start.strings.insert text start.nextId).keys ↔ _
      rw [OrderedMap.keys_insert]
      by_cases same : other = text <;> simp [same]

theorem placeRecord {id : GlobalId} {record : TypeRecord} {virtualTable : Option Constant}
    (placed : placeRecord id record virtualTable start = .ok ((), finish)) :
    Adds start finish 0 fun _ => False := by
  obtain ⟨_, _, _, _, changed⟩ := placeRecord_eq_ok.mp placed
  rw [← changed]
  exact withChanged start _ _

end Adds

end Segment

namespace Generator

open Assembly Segment

variable {generator : Generator} {id : ClassId} {entry : RecordEntry} {facts : RecordFacts}
  {parts : RecordParts} {exported extension : Option GlobalId}
  {start finish prepared placed : Segment} {before after : Assembly} {call : Call}
  {calls : List Call}

theorem NamePartPlaced.adds {text : Option String} {place : Option GlobalId}
    (run : NamePartPlaced text place start finish) : Adds start finish 0 (text = some ·) := by
  cases run with
  | absent => exact (Adds.refl start).congr rfl fun text => by simp
  | placed interned => exact (Adds.internString interned).congr rfl fun text => by simp [eq_comm]

theorem PartsPlaced.adds (run : PartsPlaced facts parts start finish) :
    Adds start finish 4 fun text =>
      facts.reflected.package = some text ∨ facts.reflected.relative = some text := by
  cases run with
  | inOrder interfaces traced fields methods package relative =>
    have arrays := (((Adds.placeArray interfaces).trans (.placeArray traced)).trans
      (.placeArray fields)).trans (.placeArray methods)
    exact ((arrays.trans package.adds).trans relative.adds).congr rfl fun text => by simp

/-- The number of extension records for one record. -/
def extensionCount (generator : Generator) : Nat :=
  if generator.target.hasExtensionRecords then 1 else 0

theorem ExtensionPlaced.adds {name : String}
    (run : generator.ExtensionPlaced name extension start finish) :
    Adds start finish generator.extensionCount fun _ => False := by
  unfold extensionCount
  cases run with
  | absent _ lacking =>
    rw [lacking]
    exact .refl start
  | placed having placed =>
    rw [having]
    obtain ⟨_, _, rfl⟩ := placeWritable_eq_ok.mp placed
    exact .withGlobal start _

/-- The number of globals that hold an address for the symbol of a class. -/
def exportCount (definition : ClassDefinition) : Nat :=
  if definition.exportSymbol.isSome then 1 else 0

theorem Exported.adds {definition : ClassDefinition} {global : GlobalId}
    (run : Exported definition global exported start finish) :
    Adds start finish (exportCount definition) fun _ => False := by
  unfold exportCount
  cases run with
  | absent _ unasked =>
    rw [unasked]
    exact .refl start
  | @placed symbol _ asked _ used =>
    rw [asked]
    have added := Adds.withGlobal start (exportedGlobal symbol global)
    exact ⟨added.size, added.texts⟩

/-! ## What a call adds -/

/-- The number of globals that a call adds besides strings. -/
def placedCount (generator : Generator) : Call → Nat
  | .declare _ => 1 + generator.extensionCount
  | .generate id => 4 + (generator.catalog.definition? id).elim 0 exportCount
  | .adapt _ _ => 3 + generator.extensionCount

/-- Whether a call interns a text: it is a part of the name under which a class is reported. -/
def Interns (generator : Generator) (call : Call) (text : String) : Prop :=
  ∃ id name, call = .generate id ∧ generator.catalog.reflectedName id = .ok name ∧
    (name.package = some text ∨ name.relative = some text)

theorem DeclareRun.adds {definition : ClassDefinition}
    (run : generator.DeclareRun id definition extension before after) :
    Adds before.segment after.segment (generator.placedCount (.declare id))
      (generator.Interns (.declare id)) := by
  have whole := (Adds.withGlobal before.segment _).trans run.extensionPlaced.adds
  exact whole.congr rfl fun text => by simp [Interns]

theorem RecordRun.adds
    (run : generator.RecordRun id entry facts parts exported prepared placed before after) :
    Adds before.segment after.segment (generator.placedCount (.generate id))
      (generator.Interns (.generate id)) := by
  have toRecord := run.partsPlaced.adds.trans (.placeRecord run.recordPlaced)
  have whole := toRecord.trans run.addressExported.adds
  refine whole.congr ?_ fun text => ?_
  · simp [placedCount, run.answers.definition]
  · simp [Interns, run.answers.reflected]

theorem AdapterRun.adds {interface : ClassId} {overrides : List Override}
    {definition : ClassDefinition} {methods : List MethodRecord} {parts : AdapterParts}
    {slots : List VirtualSlot}
    (run : generator.AdapterRun interface overrides definition methods parts slots prepared before
      finish) :
    Adds before.segment finish (generator.placedCount (.adapt interface overrides))
      (generator.Interns (.adapt interface overrides)) := by
  obtain ⟨_, _, interfaceArray, methodArray, extensionPlaced⟩ := run.partsPlaced
  have arrays := (Adds.placeArray interfaceArray).trans (.placeArray methodArray)
  have reserved := Adds.withGlobal prepared (adapterGlobal definition parts prepared)
  have toRecord := (arrays.trans extensionPlaced.adds).trans reserved
  have whole := toRecord.trans (.placeRecord run.recordPlaced)
  refine whole.congr ?_ fun text => by simp [Interns]
  show _ = 3 + generator.extensionCount
  omega

/-! ## Runs -/

/-- Makes calls one after the other, until one of them fails. -/
def performAll (generator : Generator) (calls : List Call) : Build Unit :=
  calls.forM fun call => discard (generator.perform call)

/-- What a run has reached after these calls. The order of the calls is not in it. -/
structure Reached (generator : Generator) (calls : List Call) (assembly : Assembly) : Prop where
  coherent : assembly.Coherent generator
  extensions : assembly.registry.ExtensionsDistinct
  placed : ∀ id, .generate id ∈ calls → ∃ entry facts parts,
    assembly.registry.find? id = some entry ∧ assembly.Placed generator id entry facts parts
  adds : Adds .empty assembly.segment (calls.map generator.placedCount).sum
    fun text => ∃ call ∈ calls, generator.Interns call text

theorem reached_empty (generator : Generator) : generator.Reached [] .empty where
  coherent := coherent_empty generator
  extensions := fun _ _ _ _ _ found => by cases found
  placed := fun id member => by cases member
  adds := (Adds.refl .empty).congr rfl fun text => by simp

/-- A new extension record is none of those that are there. -/
theorem DeclareRun.extension_isNew {definition : ClassDefinition}
    (run : generator.DeclareRun id definition extension before after) {place : GlobalId}
    {value : Constant} (held : before.segment.initial? place = some value) :
    extension ≠ some place := by
  rintro rfl
  obtain ⟨global, found, _⟩ := initial?_eq_some.mp held
  have still := (extends_withGlobal before.segment
    (generator.declaredGlobal definition)).globals found
  cases run.extensionPlaced with
  | placed _ placed =>
    obtain ⟨_, isNext, _⟩ := placeWritable_eq_ok.mp placed
    exact ne_nextId_of_get? still isNext.symm

namespace Reached

theorem adds_append (reached : generator.Reached calls before)
    (added : Adds before.segment after.segment (generator.placedCount call)
      (generator.Interns call)) :
    Adds .empty after.segment ((calls ++ [call]).map generator.placedCount).sum
      fun text => ∃ made ∈ calls ++ [call], generator.Interns made text := by
  refine (reached.adds.trans added).congr ?_ fun text => ?_
  · simp
  · simp [or_and_right, exists_or]

/-- A record that is in place stays there while its entry keeps its globals. -/
theorem placed_append (reached : generator.Reached calls before)
    (continues : after.Continues before)
    (kept : ∀ {id entry}, .generate id ∈ calls → before.registry.find? id = some entry →
      ∃ later, after.registry.find? id = some later ∧ later.global = entry.global ∧
        later.extension = entry.extension)
    (last : ∀ id, .generate id = call → ∃ entry facts parts,
      after.registry.find? id = some entry ∧ after.Placed generator id entry facts parts) :
    ∀ id, .generate id ∈ calls ++ [call] → ∃ entry facts parts,
      after.registry.find? id = some entry ∧ after.Placed generator id entry facts parts := by
  intro id member
  rcases List.mem_append.mp member with earlier | isLast
  · obtain ⟨entry, facts, parts, found, placed⟩ := reached.placed id earlier
    obtain ⟨later, foundLater, sameGlobal, sameExtension⟩ := kept earlier found
    have placedLater := placed.continue continues
    exact ⟨later, facts, parts, foundLater,
      { placedLater with
        value := by rw [sameGlobal]; exact placedLater.value
        extension := by rw [sameExtension]; exact placedLater.extension }⟩
  · exact last id (List.mem_singleton.mp isLast)

theorem declare (reached : generator.Reached calls before) {definition : ClassDefinition}
    (run : generator.DeclareRun id definition extension before after) :
    generator.Reached (calls ++ [.declare id]) after where
  coherent := run.coherent reached.coherent
  extensions := by
    -- The new extension record is none of those that are there.
    rw [run.registered]
    refine reached.extensions.withEntry fun other entry place _ known isExtension same => ?_
    have held := (reached.coherent.extension known).zero place isExtension
    exact run.extension_isNew held same
  placed := by
    refine reached.placed_append run.continues (fun {other entry} _ known => ?_)
      fun _ impossible => ?_
    · have differs : other ≠ id := by
        rintro rfl
        rw [run.isNew] at known
        cases known
      exact ⟨entry, run.find?_eq_some.mpr (.inr ⟨differs, known⟩), rfl, rfl⟩
    · cases impossible
  adds := reached.adds_append run.adds

theorem generate (reached : generator.Reached calls before)
    (run : generator.RecordRun id entry facts parts exported prepared placed before after)
    {entries : List DispatchEntry} (opened : generator.catalog.virtualSlots id = .ok entries) :
    generator.Reached (calls ++ [.generate id]) after where
  coherent := run.coherent reached.coherent opened
  extensions := by
    rw [run.registered]
    refine reached.extensions.withEntry fun other present place differs known isExtension same => ?_
    exact differs (reached.extensions other id present entry place known run.entered isExtension
      same)
  placed := by
    have inPlace := run.placed_after reached.coherent.interned
    refine reached.placed_append run.continues (fun {other present} _ known => ?_) ?_
    · by_cases same : other = id
      · subst same
        cases known.symm.trans run.entered
        exact ⟨_, run.find?_eq_some.mpr (.inl ⟨rfl, rfl⟩), rfl, rfl⟩
      · exact ⟨present, run.find?_eq_some.mpr (.inr ⟨same, known⟩), rfl, rfl⟩
    · rintro other ⟨⟩
      exact ⟨_, facts, parts, run.find?_eq_some.mpr (.inl ⟨rfl, rfl⟩), { inPlace with }⟩
  adds := reached.adds_append run.adds

theorem adapt (reached : generator.Reached calls before) {interface : ClassId}
    {overrides : List Override} {definition : ClassDefinition} {methods : List MethodRecord}
    {parts : AdapterParts} {slots : List VirtualSlot}
    (run : generator.AdapterRun interface overrides definition methods parts slots prepared before
      finish) :
    generator.Reached (calls ++ [.adapt interface overrides])
      { before with segment := finish } where
  coherent := reached.coherent.grow run.growth
  extensions := reached.extensions
  placed := by
    have continues := continues_of_extends run.growth.extended before.registry
    refine reached.placed_append continues (fun {_ entry} _ known => ?_) fun _ impossible => ?_
    · exact ⟨entry, known, rfl, rfl⟩
    · cases impossible
  adds := by
    have added := run.adds
    exact reached.adds_append added

/-- Each call keeps what a run has reached. -/
theorem perform (reached : generator.Reached calls before)
    (opened : ∀ id, generator.catalog.IsDefined id →
      ∃ entries, generator.catalog.virtualSlots id = .ok entries)
    {global : GlobalId} (ran : generator.perform call before = .ok global after) :
    generator.Reached (calls ++ [call]) after := by
  cases call with
  | declare id =>
    obtain ⟨definition, extension, run⟩ := exists_declareRun ran
    exact reached.declare run
  | generate id =>
    obtain ⟨entry, facts, parts, exported, prepared, placed, run⟩ := exists_recordRun ran
    obtain ⟨entries, walked⟩ := opened id ⟨_, run.answers.definition⟩
    exact reached.generate run walked
  | adapt interface overrides =>
    have ending := adapterEnding generator interface overrides before
    rw [show generator.generateAdapter interface overrides before = .ok global after from ran]
      at ending
    cases ending with
    | generated run => exact reached.adapt run

end Reached

theorem reached_of_performAll {sorted : List ClassId} (graph : generator.catalog.SoundGraph)
    (order : generator.catalog.ClassOrder sorted) {value : Unit}
    (ran : generator.performAll calls .empty = .ok value after) :
    generator.Reached calls after := by
  refine Build.forM_preserves ran generator.Reached (reached_empty generator) ?_
  intro done next rest _ middle reached earlier stepped
  obtain ⟨global, ran⟩ := Build.discard_eq_ok.mp stepped
  exact earlier.perform (fun id => Catalog.exists_virtualSlots graph order) ran

/-! ## Two runs -/

namespace Reached

theorem content?_eq (reached : generator.Reached calls after) (member : .generate id ∈ calls) :
    ∃ facts, generator.Answers id facts ∧
      after.content? id = some (facts.content id generator.target) := by
  obtain ⟨entry, facts, parts, found, placed⟩ := reached.placed id member
  exact ⟨facts, placed.answers, placed.content?_eq reached.coherent reached.extensions found⟩

theorem mem_strings (reached : generator.Reached calls after) (text : String) :
    text ∈ after.segment.strings.keys ↔ ∃ call ∈ calls, generator.Interns call text := by
  rw [reached.adds.texts]
  apply or_iff_right
  exact List.not_mem_nil

theorem size_eq (reached : generator.Reached calls after) :
    after.segment.size =
      (calls.map generator.placedCount).sum + after.segment.strings.keys.length := by
  have added := reached.adds.size
  have noStrings : (Segment.empty.strings).size = 0 := rfl
  have noGlobals : Segment.empty.size = 0 := rfl
  have listed : after.segment.strings.keys.length = after.segment.strings.size := List.length_map _
  omega

variable {others : List Call} {other : Assembly}

/-- Two runs with the same calls reach the same content of each generated record. -/
theorem content?_eq_of_perm (reached : generator.Reached calls after)
    (reachedOther : generator.Reached others other) (same : calls.Perm others)
    (member : .generate id ∈ calls) :
    ∃ content, after.content? id = some content ∧ other.content? id = some content := by
  obtain ⟨facts, answers, first⟩ := reached.content?_eq member
  obtain ⟨otherFacts, otherAnswers, second⟩ := reachedOther.content?_eq (same.mem_iff.mp member)
  rw [otherAnswers.unique answers] at second
  exact ⟨_, first, second⟩

theorem mem_strings_iff_of_perm (reached : generator.Reached calls after)
    (reachedOther : generator.Reached others other) (same : calls.Perm others) (text : String) :
    text ∈ after.segment.strings.keys ↔ text ∈ other.segment.strings.keys := by
  rw [reached.mem_strings, reachedOther.mem_strings]
  simp only [same.mem_iff]

theorem size_eq_of_perm (reached : generator.Reached calls after)
    (reachedOther : generator.Reached others other) (same : calls.Perm others) :
    after.segment.size = other.segment.size := by
  have sameCount := (same.map generator.placedCount).sum_nat
  have sameStrings : after.segment.strings.keys.Perm other.segment.strings.keys := by
    apply (List.perm_ext_iff_of_nodup after.segment.strings.keysDistinct
      other.segment.strings.keysDistinct).mpr
    exact reached.mem_strings_iff_of_perm reachedOther same
  rw [reached.size_eq, reachedOther.size_eq, sameCount, sameStrings.length_eq]

end Reached

end Generator

/-- The calls that declare and generate all of these classes. -/
def buildCalls (classes : List ClassId) : List Call :=
  classes.map .declare ++ classes.map .generate

theorem generate_mem_buildCalls {classes : List ClassId} {id : ClassId} (member : id ∈ classes) :
    .generate id ∈ buildCalls classes :=
  List.mem_append_right _ (List.mem_map_of_mem member)

/-- The two phases of a build are a run with these calls. -/
theorem Generator.buildAll_eq_performAll (generator : Generator) (classes : List ClassId) :
    generator.buildAll classes = generator.performAll (buildCalls classes) := by
  unfold buildAll performAll buildCalls
  simp only [List.forM_eq_forM, List.forM_append, List.forM_map, perform]

/-- **The order of the calls does not show in the records.** Two runs that declare and generate
every class, in any two orders in which no call fails, agree on the content of every record, on the
number of globals and on the strings. -/
theorem content?_eq_of_perm_buildCalls {catalog : Catalog} {target : Target}
    {classes : List ClassId} {firstCalls secondCalls : List Call} {first second : Assembly}
    (accepted : catalog.sortClasses = .ok classes)
    (firstOrder : firstCalls.Perm (buildCalls classes))
    (secondOrder : secondCalls.Perm (buildCalls classes))
    (firstRan : (Generator.mk catalog target).performAll firstCalls .empty = .ok () first)
    (secondRan : (Generator.mk catalog target).performAll secondCalls .empty = .ok () second) :
    (∀ id, catalog.IsDefined id →
      ∃ content, first.content? id = some content ∧ second.content? id = some content) ∧
    first.segment.size = second.segment.size ∧
    ∀ text, text ∈ first.segment.strings.keys ↔ text ∈ second.segment.strings.keys := by
  have graph := Catalog.soundGraph_of_sortClasses accepted
  have order := Catalog.classOrder_of_sortClasses accepted
  have same : firstCalls.Perm secondCalls := firstOrder.trans secondOrder.symm
  have reachedFirst := Generator.reached_of_performAll graph order firstRan
  have reachedSecond := Generator.reached_of_performAll graph order secondRan
  refine ⟨fun id isDefined => ?_, reachedFirst.size_eq_of_perm reachedSecond same,
    reachedFirst.mem_strings_iff_of_perm reachedSecond same⟩
  have member := generate_mem_buildCalls ((order.complete id).mpr isDefined)
  exact reachedFirst.content?_eq_of_perm reachedSecond same (firstOrder.mem_iff.mpr member)

/-- The sample classes can also be declared and generated the other way round. -/
theorem exists_performAll_shapes_reversed :
    ∃ assembly, (Generator.mk Catalog.shapes .iphone).performAll
      (buildCalls [⟨4⟩, ⟨3⟩, ⟨1⟩, ⟨2⟩, ClassId.root]) .empty = .ok () assembly := by
  have succeeds : ((Generator.mk Catalog.shapes .iphone).performAll
      (buildCalls [⟨4⟩, ⟨3⟩, ⟨1⟩, ⟨2⟩, ClassId.root])).succeeds .empty = true := by
    decide +kernel
  obtain ⟨_, assembly, ran⟩ := Build.exists_eq_ok succeeds
  exact ⟨assembly, ran⟩

theorem shapes_content?_eq_reversed :
    ∃ first second,
      (Generator.mk Catalog.shapes .iphone).buildAll [ClassId.root, ⟨2⟩, ⟨1⟩, ⟨3⟩, ⟨4⟩] .empty =
        .ok () first ∧
      (Generator.mk Catalog.shapes .iphone).performAll
        (buildCalls [⟨4⟩, ⟨3⟩, ⟨1⟩, ⟨2⟩, ClassId.root]) .empty = .ok () second ∧
      (∃ content, first.content? ⟨4⟩ = some content ∧ second.content? ⟨4⟩ = some content) ∧
      first.segment.size = second.segment.size := by
  obtain ⟨assembly, generated⟩ := exists_generateModule_shapes
  obtain ⟨classes, declared, accepted, declaredAll, generatedAll⟩ :=
    generateModule_eq_ok.mp generated
  rw [Catalog.shapes_sortClasses] at accepted
  cases accepted
  have built : (Generator.mk Catalog.shapes .iphone).buildAll
      [ClassId.root, ⟨2⟩, ⟨1⟩, ⟨3⟩, ⟨4⟩] .empty = .ok () assembly :=
    Build.bind_eq_ok.mpr ⟨(), declared, declaredAll, generatedAll⟩
  obtain ⟨reversed, ran⟩ := exists_performAll_shapes_reversed
  have reordered : (buildCalls [⟨4⟩, ⟨3⟩, ⟨1⟩, ⟨2⟩, ClassId.root]).Perm
      (buildCalls [ClassId.root, ⟨2⟩, ⟨1⟩, ⟨3⟩, ⟨4⟩]) := by
    decide
  have inOrder := built
  rw [Generator.buildAll_eq_performAll] at inOrder
  have agree := content?_eq_of_perm_buildCalls Catalog.shapes_sortClasses (.refl _) reordered
    inOrder ran
  exact ⟨assembly, reversed, built, ran, agree.1 ⟨4⟩ ⟨_, rfl⟩, agree.2.1⟩

end TypeRecords
