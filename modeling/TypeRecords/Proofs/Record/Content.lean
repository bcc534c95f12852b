import TypeRecords.Proofs.Record.Consistent

/-!
The content of a record.

Owns what a record says once every address in it is replaced by what it leads to: an array by its
items, a string by its text, and the address of a record or of an extension record by the class it
belongs to. The content is read out of the segment. A generated record has the content its class
asks for, which no number of a global enters.
-/

namespace TypeRecords

/-! ## Reading a content -/

/-- An item of an array, with the class in place of the address of its record. -/
inductive ContentItem where
  | plain (value : Constant)
  | record (id : ClassId)

structure TableContent where
  items : List ContentItem
  count : Int32

structure RecordContent where
  nameHash : NameHash
  instanceSize : Int32
  supertype : Option ClassId
  tracedOffsets : TableContent
  interfaces : TableContent
  methods : TableContent
  fields : TableContent
  packageName : Option String
  relativeName : Option String
  /-- The class whose extension record it is. -/
  extension : Option ClassId
  virtualTable : Option (List ContentItem)

/-- The first key whose value has a property. -/
def OrderedMap.keyOf? {κ α : Type} (map : OrderedMap κ α) (property : α → Bool) : Option κ :=
  (map.entries.find? fun entry => property entry.2).map Prod.fst

theorem OrderedMap.keyOf?_eq_some {κ α : Type} [DecidableEq κ] {map : OrderedMap κ α}
    {property : α → Bool} {key : κ} {value : α} (found : map.find? key = some value)
    (holds : property value = true)
    (unique : ∀ other otherValue, map.find? other = some otherValue →
      property otherValue = true → other = key) : map.keyOf? property = some key := by
  unfold keyOf?
  cases searched : map.entries.find? fun entry => property entry.2 with
  | none =>
    have rejected := List.find?_eq_none.mp searched _ (find?_eq_some_iff.mp found)
    exact absurd holds rejected
  | some entry =>
    obtain ⟨other, otherValue⟩ := entry
    have present := find?_eq_some_iff.mpr (List.mem_of_find?_eq_some searched)
    have otherHolds := List.find?_some searched
    rw [unique other otherValue present otherHolds]
    rfl

namespace Registry

/-- The class to which a record global belongs. -/
def recordOwner? (registry : Registry) (global : GlobalId) : Option ClassId :=
  registry.entries.keyOf? fun entry => entry.global = global

/-- The class to which an extension record belongs. -/
def extensionOwner? (registry : Registry) (extension : GlobalId) : Option ClassId :=
  registry.entries.keyOf? fun entry => entry.extension = some extension

/-- Whether no two classes are entered with the same extension record. -/
def ExtensionsDistinct (registry : Registry) : Prop :=
  ∀ first second firstEntry secondEntry extension, registry.find? first = some firstEntry →
    registry.find? second = some secondEntry → firstEntry.extension = some extension →
      secondEntry.extension = some extension → first = second

theorem ExtensionsDistinct.withEntry {registry : Registry} (distinct : registry.ExtensionsDistinct)
    {id : ClassId} {added : RecordEntry}
    (apart : ∀ other present extension, other ≠ id → registry.find? other = some present →
      present.extension = some extension → added.extension ≠ some extension) :
    (registry.withEntry id added).ExtensionsDistinct := by
  intro first second firstEntry secondEntry extension firstEntered secondEntered firstHas secondHas
  rcases find?_withEntry_eq_some.mp firstEntered with ⟨rfl, rfl⟩ | ⟨firstApart, firstKnown⟩
  · rcases find?_withEntry_eq_some.mp secondEntered with ⟨rfl, _⟩ | ⟨secondApart, secondKnown⟩
    · rfl
    · exact absurd firstHas (apart second secondEntry extension secondApart secondKnown secondHas)
  · rcases find?_withEntry_eq_some.mp secondEntered with ⟨rfl, rfl⟩ | ⟨_, secondKnown⟩
    · exact absurd secondHas (apart first firstEntry extension firstApart firstKnown firstHas)
    · exact distinct first second firstEntry secondEntry extension firstKnown secondKnown firstHas
        secondHas

theorem recordOwner?_eq_some {registry : Registry} (distinct : registry.GlobalsDistinct)
    {id : ClassId} {global : GlobalId} (entered : registry.RecordAt id global) :
    registry.recordOwner? global = some id := by
  obtain ⟨entry, found, rfl⟩ := entered
  apply OrderedMap.keyOf?_eq_some found
  · simp
  · intro other present otherFound same
    exact distinct other id present entry otherFound found (by simpa using same)

theorem extensionOwner?_eq_some {registry : Registry} (distinct : registry.ExtensionsDistinct)
    {id : ClassId} {entry : RecordEntry} (found : registry.find? id = some entry)
    {extension : GlobalId} (isExtension : entry.extension = some extension) :
    registry.extensionOwner? extension = some id := by
  apply OrderedMap.keyOf?_eq_some found
  · simp [isExtension]
  · intro other present otherFound same
    exact distinct other id present entry extension otherFound found (by simpa using same)
      isExtension

end Registry

namespace Assembly

/-- An item with its address replaced. It has no content where an address is left in it. -/
def item? (assembly : Assembly) : Constant → Option ContentItem
  | .globalAddress global => (assembly.registry.recordOwner? global).map .record
  | value => if value.globals = [] then some (.plain value) else none

def tableContent? (assembly : Assembly) (table : Table) : Option TableContent :=
  match table.array.bind assembly.segment.initial? with
  | some (.array _ items) => (items.mapM assembly.item?).map (⟨·, table.count⟩)
  | _ => none

/-- The content of the record of a class, as it stands in the segment. -/
def content? (assembly : Assembly) (id : ClassId) : Option RecordContent := do
  let entry ← assembly.registry.find? id
  let value ← assembly.segment.initial? entry.global
  let (record, slots) ← TypeRecord.readWithTable? value
  return {
    nameHash := record.nameHash
    instanceSize := record.instanceSize
    supertype := ← record.supertype.mapM assembly.registry.recordOwner?
    tracedOffsets := ← assembly.tableContent? record.tracedOffsets
    interfaces := ← assembly.tableContent? record.interfaces
    methods := ← assembly.tableContent? record.methods
    fields := ← assembly.tableContent? record.fields
    packageName := ← record.packageName.mapM assembly.segment.textOf?
    relativeName := ← record.relativeName.mapM assembly.segment.textOf?
    extension := ← record.extension.mapM assembly.registry.extensionOwner?
    virtualTable := ← slots.mapM (List.mapM assembly.item?) }

end Assembly

/-! ## The content a class asks for -/

def TableContent.ofItems (items : List ContentItem) : TableContent :=
  ⟨items, Int32.ofNat items.length⟩

/-- The items of the virtual table of a class. -/
def RecordFacts.slotItems (facts : RecordFacts) : Option (List ContentItem) :=
  match facts.virtualTable with
  | some (.array _ items) => some (items.map .plain)
  | _ => none

/-- The content of the record of a class with these answers. -/
def RecordFacts.content (facts : RecordFacts) (id : ClassId) (target : Target) : RecordContent where
  nameHash := NameHash.of facts.definition.name.display
  instanceSize := facts.layout.size
  supertype := facts.supertype
  tracedOffsets := .ofItems (facts.layout.tracedOffsets.map fun offset => .plain (.i32 offset))
  interfaces := .ofItems (facts.interfaces.map .record)
  methods := .ofItems (facts.methods.map fun record => .plain record.constant)
  fields :=
    if facts.definition.isInterface then ⟨[], -1⟩
    else .ofItems (facts.fields.map fun record => .plain record.constant)
  packageName := facts.reflected.package
  relativeName := facts.reflected.relative
  extension := if target.hasExtensionRecords then some id else none
  virtualTable := facts.slotItems

/-- There is one answer to each question. -/
theorem Generator.Answers.unique {generator : Generator} {id : ClassId} {first second : RecordFacts}
    (firstAnswers : generator.Answers id first) (secondAnswers : generator.Answers id second) :
    first = second := by
  have definition := firstAnswers.definition.symm.trans secondAnswers.definition
  have layout := firstAnswers.layout.symm.trans secondAnswers.layout
  have supertype := firstAnswers.supertype.symm.trans secondAnswers.supertype
  have interfaces := firstAnswers.interfaces.symm.trans secondAnswers.interfaces
  have methods := firstAnswers.methods.symm.trans secondAnswers.methods
  have reflected := firstAnswers.reflected.symm.trans secondAnswers.reflected
  have virtualTable := firstAnswers.virtualTable
  rw [Option.some.inj definition, secondAnswers.virtualTable] at virtualTable
  cases first
  cases second
  simp_all

/-! ## Records that are in place -/

/-- Whether the record of a class with these answers and parts is in place. -/
structure Assembly.Placed (assembly : Assembly) (generator : Generator) (id : ClassId)
    (entry : RecordEntry) (facts : RecordFacts) (parts : RecordParts) : Prop where
  answers : generator.Answers id facts
  value : assembly.segment.initial? entry.global =
    some (Segment.recordInitial (parts.record facts) facts.virtualTable)
  held : Generator.PartsHeld facts parts assembly.segment
  supertype : Option.Rel assembly.registry.RecordAt facts.supertype parts.supertype
  interfaces : List.Forall₂ assembly.registry.RecordAt facts.interfaces parts.interfaces
  extension : parts.extension = entry.extension

namespace Generator

variable {generator : Generator} {id : ClassId} {entry : RecordEntry} {facts : RecordFacts}
  {parts : RecordParts} {assembly later before after : Assembly}

theorem PartsHeld.keep {earlier later : Segment} (held : PartsHeld facts parts earlier)
    (keeps : later.KeepsDefined earlier) : PartsHeld facts parts later where
  interfaces := keeps.holdsArray held.interfaces
  traced := keeps.holdsArray held.traced
  fields := keeps.holdsArray held.fields
  methods := keeps.holdsArray held.methods
  package := keeps.holdsText held.package
  relative := keeps.holdsText held.relative

theorem RecordRun.placed_after {exported : Option GlobalId} {prepared placed : Segment}
    (run : generator.RecordRun id entry facts parts exported prepared placed before after)
    (interned : before.segment.Interned) : after.Placed generator id entry facts parts := by
  obtain ⟨declared, _, _, found⟩ := run.global_completed
  have held := run.partsPlaced.growth.2 interned
  have continues := run.continues_prepared
  exact {
    answers := run.answers
    value := Segment.initial?_eq_some.mpr ⟨_, found, rfl⟩
    held := held.keep continues.defined
    supertype := continues.supertypeAt run.supertype
    interfaces := run.interfaces.imp fun _ _ entered => run.recordAt entered
    extension := run.extension }

end Generator

namespace Assembly

open Generator

variable {generator : Generator} {id : ClassId} {entry : RecordEntry} {facts : RecordFacts}
  {parts : RecordParts} {assembly later : Assembly}

/-- A record stays in place. -/
theorem Placed.continue (placed : assembly.Placed generator id entry facts parts)
    (continues : later.Continues assembly) : later.Placed generator id entry facts parts where
  answers := placed.answers
  value := continues.defined.initial? placed.value
  held := placed.held.keep continues.defined
  supertype := continues.supertypeAt placed.supertype
  interfaces := placed.interfaces.imp fun _ _ entered => continues.records entered
  extension := placed.extension

/-! ### Reading it -/

theorem item?_eq_plain {type : DataType} {value : Constant} (plain : value.IsPlain type) :
    assembly.item? value = some (.plain value) := by
  have addressFree := plain.globals
  cases value with
  | globalAddress global => simp [Constant.globals] at addressFree
  | _ => simp [item?, addressFree]

theorem items?_eq_plain {type : DataType} {items : List Constant}
    (each : ∀ item ∈ items, item.IsPlain type) :
    items.mapM assembly.item? = some (items.map .plain) := by
  induction items with
  | nil => rfl
  | cons item rest inductionHypothesis =>
    rw [List.forall_mem_cons] at each
    rw [List.mapM_cons, item?_eq_plain each.1, inductionHypothesis each.2]
    rfl

theorem items?_eq_records (distinct : assembly.registry.GlobalsDistinct) {ids : List ClassId}
    {globals : List GlobalId} (entered : List.Forall₂ assembly.registry.RecordAt ids globals) :
    (globals.map Constant.globalAddress).mapM assembly.item? =
      some (ids.map ContentItem.record) := by
  induction entered with
  | nil => rfl
  | cons first rest inductionHypothesis =>
    rw [List.map_cons, List.mapM_cons, inductionHypothesis, item?,
      Registry.recordOwner?_eq_some distinct first]
    rfl

theorem tableContent?_eq_some {table : Table} {array : GlobalId} {element : DataType}
    {items : List Constant} {content : List ContentItem} (points : table.array = some array)
    (held : assembly.segment.HoldsArray array element items)
    (read : items.mapM assembly.item? = some content) :
    assembly.tableContent? table = some ⟨content, table.count⟩ := by
  unfold tableContent?
  rw [points, Option.bind_some, held.initial?]
  dsimp only
  rw [read]
  rfl

theorem texts?_eq_some {place : Option GlobalId} {text : Option String}
    (held : assembly.segment.HoldsText place text) :
    place.mapM assembly.segment.textOf? = some text := by
  cases held with
  | none => rfl
  | some held =>
    show (assembly.segment.textOf? _).map some = _
    unfold Segment.textOf?
    rw [held]
    rfl

theorem supertype?_eq_some (distinct : assembly.registry.GlobalsDistinct)
    {supertype : Option ClassId} {place : Option GlobalId}
    (entered : Option.Rel assembly.registry.RecordAt supertype place) :
    place.mapM assembly.registry.recordOwner? = some supertype := by
  cases entered with
  | none => rfl
  | some entered =>
    show (assembly.registry.recordOwner? _).map some = _
    rw [Registry.recordOwner?_eq_some distinct entered]
    rfl

/-- The extension record of a class is there on the targets that have them. -/
theorem extension?_eq_some {target : Target} (distinct : assembly.registry.ExtensionsDistinct)
    (found : assembly.registry.find? id = some entry)
    (held : assembly.segment.HoldsExtension target entry.extension) :
    entry.extension.mapM assembly.registry.extensionOwner? =
      some (if target.hasExtensionRecords then some id else none) := by
  have present := held.present
  cases isExtension : entry.extension with
  | none =>
    rw [isExtension] at present
    rw [← present]
    rfl
  | some extension =>
    rw [isExtension] at present
    rw [← present]
    show (assembly.registry.extensionOwner? extension).map some = _
    rw [Registry.extensionOwner?_eq_some distinct found isExtension]
    rfl

/-- The virtual table behind a record is an array of function addresses. -/
theorem exists_slots_of_answers (assembly : Assembly) (answers : generator.Answers id facts) :
    ∃ slots : Option (List Constant), facts.virtualTable = slots.map (Constant.array .ptr) ∧
      slots.mapM (List.mapM assembly.item?) = some facts.slotItems := by
  rcases recordVirtualTable_eq_ok.mp answers.virtualTable with
    ⟨_, absent⟩ | ⟨_, table, _, chosen⟩
  · refine ⟨none, absent, ?_⟩
    rw [RecordFacts.slotItems, absent]
    rfl
  · by_cases isEmpty : table.isEmpty
    · rw [if_pos isEmpty] at chosen
      refine ⟨none, chosen, ?_⟩
      rw [RecordFacts.slotItems, chosen]
      rfl
    · rw [if_neg isEmpty] at chosen
      refine ⟨some _, chosen, ?_⟩
      have plain : ∀ item ∈ table.map fun slot => Constant.functionAddressOrNull slot.entryPoint,
          item.IsPlain .ptr := by
        intro item member
        obtain ⟨slot, _, rfl⟩ := List.mem_map.mp member
        exact Constant.isPlain_functionAddressOrNull slot.entryPoint
      show (List.mapM assembly.item? _).map some = _
      rw [items?_eq_plain plain, RecordFacts.slotItems, chosen]
      rfl

/-- A placed table of plain items reads as these items with their number. -/
theorem tableContent?_eq_ofItems {α : Type} {array : GlobalId} {element : DataType} {items : List α}
    {write : α → Constant} (plain : ∀ item, (write item).IsPlain element)
    (held : assembly.segment.HoldsArray array element (items.map write)) :
    assembly.tableContent? (.placed array items.length) =
      some (.ofItems (items.map fun item => .plain (write item))) := by
  have each : ∀ item ∈ items.map write, item.IsPlain element := by
    intro item member
    obtain ⟨source, _, rfl⟩ := List.mem_map.mp member
    exact plain source
  rw [tableContent?_eq_some rfl held (items?_eq_plain each)]
  simp [TableContent.ofItems, Table.placed, Function.comp_def]

theorem fieldContent?_eq (held : PartsHeld facts parts assembly.segment) :
    assembly.tableContent? (parts.record facts).fields =
      some (facts.content id generator.target).fields := by
  have fields := held.fields
  unfold RecordParts.record RecordFacts.content
  dsimp only
  cases isInterface : facts.definition.isInterface with
  | true =>
    rw [RecordFacts.fields, if_pos isInterface] at fields
    rw [if_pos rfl, if_pos rfl]
    exact tableContent?_eq_some rfl fields rfl
  | false =>
    rw [if_neg (by simp), if_neg (by simp)]
    exact tableContent?_eq_ofItems FieldRecord.isPlain_constant fields

/-- **A record in place has the content its class asks for.** No number of a global is in it. -/
theorem Placed.content?_eq (placed : assembly.Placed generator id entry facts parts)
    (coherent : assembly.Coherent generator) (distinct : assembly.registry.ExtensionsDistinct)
    (found : assembly.registry.find? id = some entry) :
    assembly.content? id = some (facts.content id generator.target) := by
  obtain ⟨slots, shaped, virtualTable⟩ := exists_slots_of_answers assembly placed.answers
  have read := TypeRecord.readWithTable?_recordInitial (parts.record facts) slots
  rw [← shaped] at read
  have supertype : (parts.record facts).supertype.mapM assembly.registry.recordOwner? =
      some facts.supertype := supertype?_eq_some coherent.distinct placed.supertype
  have traced : assembly.tableContent? (parts.record facts).tracedOffsets =
      some (facts.content id generator.target).tracedOffsets :=
    tableContent?_eq_ofItems Constant.isPlain_i32 placed.held.traced
  have interfaces : assembly.tableContent? (parts.record facts).interfaces =
      some (facts.content id generator.target).interfaces := by
    rw [tableContent?_eq_some rfl placed.held.interfaces
      (items?_eq_records coherent.distinct placed.interfaces)]
    simp [RecordParts.record, RecordFacts.content, TableContent.ofItems, Table.placed,
      placed.interfaces.length_eq]
  have methods : assembly.tableContent? (parts.record facts).methods =
      some (facts.content id generator.target).methods :=
    tableContent?_eq_ofItems MethodRecord.isPlain_constant placed.held.methods
  have fields : assembly.tableContent? (parts.record facts).fields =
      some (facts.content id generator.target).fields := fieldContent?_eq placed.held
  have package : (parts.record facts).packageName.mapM assembly.segment.textOf? =
      some facts.reflected.package := texts?_eq_some placed.held.package
  have relative : (parts.record facts).relativeName.mapM assembly.segment.textOf? =
      some facts.reflected.relative := texts?_eq_some placed.held.relative
  have extension : (parts.record facts).extension.mapM assembly.registry.extensionOwner? =
      some (facts.content id generator.target).extension := by
    show parts.extension.mapM _ = _
    rw [placed.extension]
    exact extension?_eq_some distinct found (coherent.extension found)
  unfold content?
  refine Option.bind_eq_some_iff.mpr ⟨entry, found, ?_⟩
  refine Option.bind_eq_some_iff.mpr ⟨_, placed.value, ?_⟩
  refine Option.bind_eq_some_iff.mpr ⟨_, read, ?_⟩
  refine Option.bind_eq_some_iff.mpr ⟨_, supertype, ?_⟩
  refine Option.bind_eq_some_iff.mpr ⟨_, traced, ?_⟩
  refine Option.bind_eq_some_iff.mpr ⟨_, interfaces, ?_⟩
  refine Option.bind_eq_some_iff.mpr ⟨_, methods, ?_⟩
  refine Option.bind_eq_some_iff.mpr ⟨_, fields, ?_⟩
  refine Option.bind_eq_some_iff.mpr ⟨_, package, ?_⟩
  refine Option.bind_eq_some_iff.mpr ⟨_, relative, ?_⟩
  refine Option.bind_eq_some_iff.mpr ⟨_, extension, ?_⟩
  exact Option.bind_eq_some_iff.mpr ⟨_, virtualTable, rfl⟩

end Assembly

end TypeRecords
