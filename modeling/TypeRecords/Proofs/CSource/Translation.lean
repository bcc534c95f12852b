import TypeRecords.Proofs.CSource.StructTable
import TypeRecords.Proofs.FirstOccurrence

/-!
The unit of a segment.

Owns what a unit holds when some globals of a segment were added to it: a variable for each of them
in their order, a declaration for each function they mention in the order of first mention, and a
struct table that was filled for their types alone. Adding one more global keeps this, so it holds
of the unit of the whole segment.
-/

namespace TypeRecords

/-- The functions whose addresses a global holds, from left to right. -/
def Global.functions (global : Global) : List FunctionId :=
  (global.initial.map Constant.functions).getD []

/-- A global stands at the place of its number. -/
theorem Segment.getElem?_numbered {segment : Segment} {place : Nat} {id : GlobalId}
    {global : Global} :
    segment.numbered[place]? = some (id, global) ↔
      id = ⟨place⟩ ∧ segment.get? id = some global := by
  simp only [numbered, get?, List.getElem?_map, List.getElem?_zipIdx, Nat.zero_add]
  constructor
  · intro located
    cases found : segment.globals[place]? with
    | none => simp [found] at located
    | some other =>
      simp only [found, Option.map_some, Option.some.injEq, Prod.mk.injEq] at located
      obtain ⟨rfl, rfl⟩ := located
      exact ⟨rfl, found⟩
  · rintro ⟨rfl, found⟩
    simp [found]

theorem Segment.map_snd_numbered (segment : Segment) :
    segment.numbered.map Prod.snd = segment.globals := by
  rw [numbered, List.map_map]
  exact List.zipIdx_map_fst 0 segment.globals

namespace CSource.SourceUnit

/-- Whether a variable is that of a global, over the structs of its unit. -/
structure VariableOf (segment : Segment) (options : Options) (structs : StructTable)
    (numbered : GlobalId × Global) (declared : GlobalVariable) : Prop where
  name : declared.name = .of segment numbered.1
  type : structs.Represents numbered.2.type declared.type
  initial : declared.initial = numbered.2.initial.map (Expression.ofConstant segment)
  constant : declared.constant = numbered.2.constant
  exported : declared.exported = numbered.2.isExported
  used : declared.used = (options.retainUsed && segment.isUsed numbered.1)
  comment : declared.comment = options.comment numbered.2.name

theorem VariableOf.mono {segment : Segment} {options : Options} {structs larger : StructTable}
    {numbered : GlobalId × Global} {declared : GlobalVariable} (added : structs <+: larger)
    (isVariable : VariableOf segment options structs numbered declared) :
    VariableOf segment options larger numbered declared :=
  { isVariable with type := isVariable.type.mono added }

/-- The declaration of a function. -/
def functionDeclaration (catalog : Catalog) (options : Options) (id : FunctionId) :
    FunctionDeclaration :=
  ⟨id, options.comment (catalog.describeFunction id)⟩

/-- What a unit holds when some globals were added to it. -/
structure Translated (segment : Segment) (catalog : Catalog) (options : Options)
    (done : List (GlobalId × Global)) (unit : SourceUnit) : Prop where
  filled : unit.structs.Filled fun type => ∃ numbered ∈ done, type.Occurs numbered.2.type
  globals : List.Forall₂ (VariableOf segment options unit.structs) done unit.globals
  functions : unit.functions =
    (done.flatMap fun numbered => numbered.2.functions).eraseDups.map
      (functionDeclaration catalog options)

variable {segment : Segment} {catalog : Catalog} {options : Options} {unit : SourceUnit}
  {done : List (GlobalId × Global)}

theorem declareFunction_eq (catalog : Catalog) (options : Options) (known : List FunctionId)
    (id : FunctionId) :
    declareFunction catalog options (known.eraseDups.map (functionDeclaration catalog options)) id =
      (known ++ [id]).eraseDups.map (functionDeclaration catalog options) := by
  have isDeclared : ((known.eraseDups.map (functionDeclaration catalog options)).any
      fun declaration => declaration.id = id) = true ↔ id ∈ known := by
    rw [List.any_eq_true]
    constructor
    · rintro ⟨declaration, listed, same⟩
      obtain ⟨other, member, rfl⟩ := List.mem_map.mp listed
      have sameId : other = id := of_decide_eq_true same
      exact sameId ▸ List.mem_eraseDups.mp member
    · intro isKnown
      exact ⟨_, List.mem_map_of_mem (List.mem_eraseDups.mpr isKnown), decide_eq_true rfl⟩
  rw [FirstOccurrence.eraseDups_concat, declareFunction]
  by_cases isKnown : id ∈ known
  · rw [if_pos (isDeclared.mpr isKnown), if_pos isKnown]
  · rw [if_neg (isKnown ∘ isDeclared.mp), if_neg isKnown, List.map_append]
    rfl

/-- Declaring functions one after the other leaves out those that were declared before. -/
theorem foldl_declareFunction (catalog : Catalog) (options : Options)
    (mentioned known : List FunctionId) :
    mentioned.foldl (declareFunction catalog options)
        (known.eraseDups.map (functionDeclaration catalog options)) =
      (known ++ mentioned).eraseDups.map (functionDeclaration catalog options) := by
  induction mentioned generalizing known with
  | nil => rw [List.foldl_nil, List.append_nil]
  | cons id rest inductionHypothesis =>
    rw [List.foldl_cons, declareFunction_eq, inductionHypothesis, List.append_assoc]
    rfl

/-- One more global is added behind those before. -/
theorem Translated.addGlobal (translated : Translated segment catalog options done unit)
    (numbered : GlobalId × Global) :
    Translated segment catalog options (done ++ [numbered])
      (SourceUnit.addGlobal segment catalog options unit numbered) := by
  obtain ⟨id, global⟩ := numbered
  have known : unit.structs.Filled
      fun type => ∃ numbered ∈ done ++ [(id, global)], type.Occurs numbered.2.type :=
    translated.filled.mono fun type ⟨earlier, listed, occurs⟩ =>
      ⟨earlier, List.mem_append_left _ listed, occurs⟩
  have represented := StructTable.extends_represent global.type known
    fun part occurs => ⟨(id, global), by simp, occurs⟩
  refine ⟨represented.1.filled, ?_, ?_⟩
  · have earlier := translated.globals.imp fun _ _ isVariable =>
      isVariable.mono represented.1.added
    apply List.rel_append earlier
    exact .cons ⟨rfl, represented.2, rfl, rfl, rfl, rfl, rfl⟩ .nil
  · rw [List.flatMap_append, List.flatMap_singleton]
    rw [← foldl_declareFunction, ← translated.functions]
    rfl

/-- The unit of a segment holds all its globals. -/
theorem translated_ofSegment (segment : Segment) (catalog : Catalog) (options : Options) :
    Translated segment catalog options segment.numbered (ofSegment segment catalog options) := by
  unfold ofSegment
  induction segment.numbered using List.reverseRecOn with
  | nil =>
    rw [List.foldl_nil]
    exact ⟨.empty, .nil, rfl⟩
  | append_singleton done last inductionHypothesis =>
    rw [List.foldl_append]
    exact inductionHypothesis.addGlobal last

/-! ## Reading the unit of a segment -/

/-- Every global has its variable at the place of its number. -/
theorem exists_variableOf (segment : Segment) (catalog : Catalog) (options : Options)
    {id : GlobalId} {global : Global} (found : segment.get? id = some global) :
    ∃ declared, (ofSegment segment catalog options).globals[id.number]? = some declared ∧
      VariableOf segment options (ofSegment segment catalog options).structs (id, global)
        declared :=
  Outcome.exists_getElem?_of_forall₂ (translated_ofSegment segment catalog options).globals
    (Segment.getElem?_numbered.mpr ⟨rfl, found⟩)

/-- Every variable is that of the global with the number of its place. -/
theorem exists_get?_of_variable {place : Nat} {declared : GlobalVariable}
    (located : (ofSegment segment catalog options).globals[place]? = some declared) :
    ∃ global, segment.get? ⟨place⟩ = some global ∧
      VariableOf segment options (ofSegment segment catalog options).structs (⟨place⟩, global)
        declared := by
  have pairs := (translated_ofSegment segment catalog options).globals
  obtain ⟨⟨id, global⟩, listed, isVariable⟩ :=
    Outcome.exists_getElem?_of_forall₂ pairs.flip located
  obtain ⟨rfl, found⟩ := Segment.getElem?_numbered.mp listed
  exact ⟨global, found, isVariable⟩

theorem mem_structDefinitions {definition : StructDefinition} :
    definition ∈ unit.structDefinitions ↔
      unit.structs[definition.number]? = some definition.members ∧ definition.comment = none := by
  obtain ⟨number, members, comment⟩ := definition
  simp only [structDefinitions, List.mem_map, Prod.exists, List.mem_zipIdx_iff_getElem?,
    StructDefinition.mk.injEq]
  constructor
  · rintro ⟨_, _, defined, rfl, rfl, rfl⟩
    exact ⟨defined, rfl⟩
  · rintro ⟨defined, rfl⟩
    exact ⟨members, number, defined, rfl, rfl, rfl⟩

end CSource.SourceUnit

end TypeRecords
