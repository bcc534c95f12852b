import Mathlib.Data.List.Induction
import TypeRecords.Proofs.Segment.Names

/-!
Sequences of requests to a segment.

Owns the one statement of what a request can do to a segment: it appends a global under a free
name, changes one in its place, enters a string with the global that holds it, or notes one as
used. From it follow the two properties that a run of any length has. The indexes over the globals
agree with them in every segment reached from the empty one. And whatever a segment holds is still
there in every later one.
-/

namespace TypeRecords

namespace Global

/-- Whether a global has the type of its initial value, if it has one. -/
def Typed (global : Global) : Prop :=
  ∀ initial, global.initial = some initial → global.type = initial.type

/-- Whether a global can be what an earlier one has become: it has the same name and linkage, and
if the earlier one was defined, the same type and initial value. -/
structure Continues (later earlier : Global) : Prop where
  name : later.name = earlier.name
  linkage : later.linkage = earlier.linkage
  defined : earlier.isDefined = true → later.type = earlier.type ∧ later.initial = earlier.initial

theorem Continues.refl (global : Global) : global.Continues global :=
  ⟨rfl, rfl, fun _ => ⟨rfl, rfl⟩⟩

theorem Continues.trans {first second third : Global} (later : third.Continues second)
    (earlier : second.Continues first) : third.Continues first where
  name := later.name.trans earlier.name
  linkage := later.linkage.trans earlier.linkage
  defined := by
    intro isDefined
    obtain ⟨sameType, sameInitial⟩ := earlier.defined isDefined
    have stillDefined : second.isDefined = true := by
      rw [isDefined.symm, Global.isDefined, sameInitial, Global.isDefined]
    obtain ⟨typeKept, initialKept⟩ := later.defined stillDefined
    exact ⟨typeKept.trans sameType, initialKept.trans sameInitial⟩

end Global

namespace Segment

open Outcome

/-! ## Requests -/

/-- A request to a segment. -/
inductive Request where
  | declare (name : String) (type : DataType) (constant : Bool) (linkage : Linkage)
  | define (id : GlobalId) (initial : Constant)
  | setConstant (id : GlobalId) (constant : Bool)
  | place (name : String) (initial : Constant)
  | internString (text : String)
  | addUsed (id : GlobalId)
  | declareInternal (name : String) (type : DataType)
  | declareFresh (name : String) (type : DataType)
  | declareExported (symbol : String) (type : DataType)
  | placeFresh (name : String) (initial : Constant)
  | placeArray (name : String) (element : DataType) (items : List Constant)
  | placeWritable (name : String) (type : DataType)

/-- The segment an edit leads to. -/
def finish {α : Type} (edit : Edit α) (before : Segment) : Except Fault Segment :=
  (edit before).map Prod.snd

/-- The segment a request leads to. -/
def Request.answer : Request → Segment → Except Fault Segment
  | .declare name type constant linkage => finish (Segment.declare name type constant linkage)
  | .define id initial => finish (Segment.define id initial)
  | .setConstant id constant => finish (Segment.setConstant id constant)
  | .place name initial => finish (Segment.place name initial)
  | .internString text => finish (Segment.internString text)
  | .addUsed id => finish (Segment.addUsed id)
  | .declareInternal name type => finish (Segment.declareInternal name type)
  | .declareFresh name type => finish (Segment.declareFresh name type)
  | .declareExported symbol type => finish (Segment.declareExported symbol type)
  | .placeFresh name initial => finish (Segment.placeFresh name initial)
  | .placeArray name element items => finish (Segment.placeArray name element items)
  | .placeWritable name type => finish (Segment.placeWritable name type)

/-- The segment that requests lead to one after the other. A fault ends them. -/
def answerAll (requests : List Request) (before : Segment) : Except Fault Segment :=
  requests.foldlM (fun segment request => request.answer segment) before

variable {segment before middle after : Segment} {request : Request} {requests : List Request}

theorem finish_eq_ok {α : Type} {edit : Edit α} :
    finish edit before = .ok after ↔ ∃ value, edit before = .ok (value, after) := by
  rw [finish]
  cases edit before with
  | error fault => simp [Except.map]
  | ok result => simp [Except.map, Prod.ext_iff]

/-- What each request preserves holds after all of them. The property may speak about the requests
so far. -/
theorem answerAll_preserves (ran : answerAll requests before = .ok after)
    (holds : List Request → Segment → Prop) (start : holds [] before)
    (each : ∀ {done request middle reached}, holds done middle →
      request.answer middle = .ok reached → holds (done ++ [request]) reached) :
    holds requests after := by
  induction requests using List.reverseRecOn generalizing after with
  | nil =>
    cases ran
    exact start
  | append_singleton done last inductionHypothesis =>
    rw [answerAll, List.foldlM_append] at ran
    obtain ⟨middle, earlier, made⟩ := bind_eq_ok.mp ran
    rw [List.foldlM_cons] at made
    obtain ⟨reached, answered, same⟩ := bind_eq_ok.mp made
    rw [← pure_eq_ok.mp same]
    exact each (inductionHypothesis earlier) answered

/-! ## The effect of a request -/

/-- The name a request asks for. -/
def Request.name? : Request → Option String
  | .declare name .. | .place name _ | .declareInternal name _ | .declareFresh name _
  | .declareExported name _ | .placeFresh name _ | .placeArray name .. | .placeWritable name _ =>
    some name
  | .define .. | .setConstant .. | .internString _ | .addUsed _ => none

/-- Whether a request may give a global this name: it asks for it, or for the part in front of a
numeric suffix. -/
def Request.Gives (request : Request) (name : String) : Prop :=
  ∃ asked, request.name? = some asked ∧ (name = asked ∨ ∃ suffix, name = suffixedName asked suffix)

theorem Request.gives_asked {name : String} (asks : request.name? = some name) :
    request.Gives name :=
  ⟨name, asks, .inl rfl⟩

theorem Request.gives_unusedName {name : String} (asks : request.name? = some name)
    (segment : Segment) : request.Gives (segment.unusedName name) := by
  refine ⟨name, asks, ?_⟩
  rcases unusedName_cases segment name with ⟨_, same⟩ | ⟨_, suffix, _, same, _⟩
  · exact .inl same
  · exact .inr ⟨suffix, same⟩

/-- The segment with a global noted as used. -/
def withUsed (segment : Segment) (id : GlobalId) : Segment :=
  { segment with used := segment.used ++ [id] }

/-- What a request can do to a segment. -/
inductive Effect (request : Request) (before : Segment) : Segment → Prop
  | kept : Effect request before before
  | added {global : Global} (gives : request.Gives global.name)
      (isFree : before.names.find? global.name = none) (typed : global.Typed) :
      Effect request before (before.withGlobal global)
  | changed {id : GlobalId} {global other : Global} (found : before.get? id = some global)
      (continues : other.Continues global) (typed : global.Typed → other.Typed) :
      Effect request before (before.withChanged id other)
  | interned {text : String} (isNew : before.strings.find? text = none)
      (isFree : before.names.find? (stringName before.strings.size) = none) :
      Effect request before ((before.withGlobal
        (placedGlobal (stringName before.strings.size) (.utf16 text))).withString text
          before.nextId)
  | used {id : GlobalId} {global : Global} (found : before.get? id = some global)
      (isNew : id ∉ before.used) : Effect request before (before.withUsed id)

theorem typed_of_initial_eq_none {global : Global} (undefined : global.initial = none) :
    global.Typed := by
  intro initial defined
  rw [undefined] at defined
  cases defined

theorem typed_of_initial_eq_some {global : Global} {initial : Constant}
    (defined : global.initial = some initial) (same : global.type = initial.type) :
    global.Typed := by
  intro other found
  rw [defined, Option.some.injEq] at found
  rw [same, found]

section Effects

variable {name : String} {type : DataType} {initial : Constant} {id : GlobalId} {value : Unit}

theorem effect_declare (gives : request.Gives name) {constant : Bool} {linkage : Linkage}
    (declared : declare name type constant linkage before = .ok (id, after)) :
    Effect request before after := by
  obtain ⟨isFree, _, rfl⟩ := declare_eq_ok.mp declared
  exact .added gives isFree (typed_of_initial_eq_none rfl)

theorem effect_place (gives : request.Gives name)
    (placed : place name initial before = .ok (id, after)) : Effect request before after := by
  obtain ⟨isFree, _, rfl⟩ := place_eq_ok.mp placed
  exact .added gives isFree (typed_of_initial_eq_some rfl rfl)

theorem effect_define (defined : define id initial before = .ok (value, after)) :
    Effect request before after := by
  obtain ⟨global, found, undefined, rfl⟩ := define_eq_ok.mp defined
  refine .changed found ⟨rfl, rfl, fun isDefined => ?_⟩ fun _ => typed_of_initial_eq_some rfl rfl
  rw [Global.isDefined, undefined] at isDefined
  cases isDefined

theorem effect_setConstant {constant : Bool}
    (set : setConstant id constant before = .ok (value, after)) : Effect request before after := by
  obtain ⟨global, found, rfl⟩ := setConstant_eq_ok.mp set
  exact .changed found ⟨rfl, rfl, fun _ => ⟨rfl, rfl⟩⟩ fun typed => typed

theorem effect_internString {text : String}
    (interned : internString text before = .ok (id, after)) : Effect request before after := by
  rcases internString_eq_ok.mp interned with ⟨_, rfl⟩ | ⟨isNew, isFree, rfl, rfl⟩
  · exact .kept
  · exact .interned isNew isFree

theorem effect_addUsed (added : addUsed id before = .ok (value, after)) :
    Effect request before after := by
  obtain ⟨_, rfl, ⟨_, found⟩, rfl | ⟨isNew, rfl⟩⟩ := addUsed_eq_ok added
  · exact .kept
  · exact .used found isNew

theorem effect_declareExported (gives : request.Gives name) {result : Except GlobalId GlobalId}
    (declared : declareExported name type before = .ok (result, after)) :
    Effect request before after := by
  rcases declareExported_eq_ok.mp declared with ⟨_, _, _, rfl⟩ | ⟨isFree, _, rfl⟩
  · exact .kept
  · exact .added gives isFree (typed_of_initial_eq_none rfl)

theorem effect_placeWritable (gives : request.Gives (before.unusedName name))
    (placed : placeWritable name type before = .ok (id, after)) : Effect request before after := by
  obtain ⟨isFree, _, rfl⟩ := placeWritable_eq_ok.mp placed
  exact .added gives isFree (typed_of_initial_eq_some rfl rfl)

end Effects

/-- The requests under fresh names are those under a name that is free. -/
theorem effect_of_answer (answered : request.answer before = .ok after) :
    Effect request before after := by
  cases request with
  | declare | declareInternal =>
    obtain ⟨id, declared⟩ := finish_eq_ok.mp answered
    exact effect_declare (Request.gives_asked rfl) declared
  | declareFresh =>
    obtain ⟨id, declared⟩ := finish_eq_ok.mp answered
    exact effect_declare (Request.gives_unusedName rfl before) declared
  | declareExported =>
    obtain ⟨result, declared⟩ := finish_eq_ok.mp answered
    exact effect_declareExported (Request.gives_asked rfl) declared
  | define =>
    obtain ⟨value, defined⟩ := finish_eq_ok.mp answered
    exact effect_define defined
  | setConstant =>
    obtain ⟨value, set⟩ := finish_eq_ok.mp answered
    exact effect_setConstant set
  | place =>
    obtain ⟨id, placed⟩ := finish_eq_ok.mp answered
    exact effect_place (Request.gives_asked rfl) placed
  | placeFresh | placeArray =>
    obtain ⟨id, placed⟩ := finish_eq_ok.mp answered
    exact effect_place (Request.gives_unusedName rfl before) placed
  | placeWritable =>
    obtain ⟨id, placed⟩ := finish_eq_ok.mp answered
    exact effect_placeWritable (Request.gives_unusedName rfl before) placed
  | internString =>
    obtain ⟨id, interned⟩ := finish_eq_ok.mp answered
    exact effect_internString interned
  | addUsed =>
    obtain ⟨value, added⟩ := finish_eq_ok.mp answered
    exact effect_addUsed added

/-! ## What later segments keep -/

/-- Whether a segment can be what an earlier one has become: globals are appended and filled in,
strings and used globals appended. -/
structure Continues (later earlier : Segment) : Prop where
  globals : ∀ {id : GlobalId} {global : Global}, earlier.get? id = some global →
    ∃ other, later.get? id = some other ∧ other.Continues global
  strings : earlier.strings.entries <+: later.strings.entries
  used : earlier.used <+: later.used

namespace Continues

theorem refl (segment : Segment) : segment.Continues segment where
  globals := fun found => ⟨_, found, .refl _⟩
  strings := List.prefix_refl _
  used := List.prefix_refl _

theorem trans (later : after.Continues middle) (earlier : middle.Continues before) :
    after.Continues before where
  globals := by
    intro id global found
    obtain ⟨between, foundBetween, kept⟩ := earlier.globals found
    obtain ⟨last, foundLast, keptLater⟩ := later.globals foundBetween
    exact ⟨last, foundLast, keptLater.trans kept⟩
  strings := earlier.strings.trans later.strings
  used := earlier.used.trans later.used

theorem initial? {id : GlobalId} {initial : Constant} (later : after.Continues before)
    (held : before.initial? id = some initial) : after.initial? id = some initial := by
  obtain ⟨global, found, defined⟩ := initial?_eq_some.mp held
  obtain ⟨other, foundLater, kept⟩ := later.globals found
  have same := (kept.defined (by rw [Global.isDefined, defined]; rfl)).2
  exact initial?_eq_some.mpr ⟨other, foundLater, same.trans defined⟩

theorem find?_strings {text : String} {id : GlobalId} (later : after.Continues before)
    (found : before.strings.find? text = some id) : after.strings.find? text = some id :=
  OrderedMap.find?_eq_some_iff.mpr
    (later.strings.subset (OrderedMap.find?_eq_some_iff.mp found))

end Continues

/-- Changing a global in place leaves the others. -/
theorem continues_withChanged {id : GlobalId} {global other : Global}
    (found : segment.get? id = some global) (continues : other.Continues global) :
    (segment.withChanged id other).Continues segment := by
  refine ⟨fun {place present} located => ?_, List.prefix_refl _, List.prefix_refl _⟩
  rw [get?_withChanged found]
  by_cases same : place = id
  · rw [same, found, Option.some.injEq] at located
    rw [if_pos same, ← located]
    exact ⟨other, rfl, continues⟩
  · rw [if_neg same]
    exact ⟨present, located, .refl present⟩

theorem Effect.continues (effect : Effect request before after) : after.Continues before := by
  cases effect with
  | kept => exact .refl before
  | added =>
    refine ⟨fun found => ⟨_, (extends_withGlobal before _).globals found, .refl _⟩, ?_, ?_⟩
    · exact List.prefix_refl _
    · exact List.prefix_refl _
  | changed found continues _ => exact continues_withChanged found continues
  | @interned text isNew =>
    refine ⟨fun found => ⟨_, (extends_withGlobal before _).globals found, .refl _⟩, ?_, ?_⟩
    · show before.strings.entries <+: (before.strings.insert text before.nextId).entries
      rw [OrderedMap.entries_insert isNew]
      exact List.prefix_append _ _
    · exact List.prefix_refl _
  | used => exact ⟨fun found => ⟨_, found, .refl _⟩, List.prefix_refl _, List.prefix_append _ _⟩

theorem continues_of_answerAll (ran : answerAll requests before = .ok after) :
    after.Continues before :=
  answerAll_preserves ran (fun _ reached => reached.Continues before) (.refl before)
    fun earlier answered => (effect_of_answer answered).continues.trans earlier

/-! ## The indexes -/

/-- Whether the indexes of a segment agree with its globals. -/
structure Indexed (segment : Segment) : Prop where
  names : ∀ {name : String} {id : GlobalId}, segment.findByName? name = some id ↔
    ∃ global, segment.get? id = some global ∧ global.name = name
  typed : ∀ {id : GlobalId} {global : Global}, segment.get? id = some global → global.Typed
  strings : segment.Interned
  usedDistinct : segment.used.Nodup
  usedPresent : ∀ id ∈ segment.used, ∃ global, segment.get? id = some global

theorem indexed_empty : empty.Indexed where
  names := by
    intro name id
    constructor
    · intro found
      cases found
    · rintro ⟨_, found, _⟩
      cases found
  typed := fun found => by cases found
  strings := fun _ _ found => by cases found
  usedDistinct := List.nodup_nil
  usedPresent := fun _ member => by cases member

namespace Indexed

theorem withGlobal (indexed : segment.Indexed) {global : Global}
    (isFree : segment.names.find? global.name = none) (typed : global.Typed) :
    (segment.withGlobal global).Indexed where
  names := by
    intro name id
    rw [findByName?, find?_names_withGlobal, get?_withGlobal]
    by_cases isNew : id = segment.nextId
    · rw [if_pos isNew]
      by_cases same : name = global.name
      · simp [same, isNew]
      · -- No older name leads to the new number.
        have unknown : segment.names.find? name ≠ some id := by
          intro found
          obtain ⟨other, present, _⟩ := indexed.names.mp found
          exact ne_nextId_of_get? present isNew
        simp [same, unknown, eq_comm]
    · rw [if_neg isNew]
      by_cases same : name = global.name
      · rw [if_pos same, ← indexed.names, findByName?, same, isFree]
        simp [Ne.symm isNew]
      · rw [if_neg same]
        exact indexed.names
  typed := by
    intro id present found
    rw [get?_withGlobal] at found
    split at found
    · cases found
      exact typed
    · exact indexed.typed found
  strings := indexed.strings.withGlobal global
  usedDistinct := indexed.usedDistinct
  usedPresent := by
    intro id member
    obtain ⟨present, found⟩ := indexed.usedPresent id member
    exact ⟨present, (extends_withGlobal segment global).globals found⟩

theorem withChanged (indexed : segment.Indexed) {id : GlobalId} {global other : Global}
    (found : segment.get? id = some global) (continues : other.Continues global)
    (typed : global.Typed → other.Typed) : (segment.withChanged id other).Indexed where
  names := by
    intro name place
    show segment.findByName? name = some place ↔ _
    rw [indexed.names, get?_withChanged found]
    by_cases same : place = id
    · simp [same, found, continues.name]
    · rw [if_neg same]
  typed := by
    intro place present located
    rw [get?_withChanged found] at located
    split at located
    · cases located
      exact typed (indexed.typed found)
    · exact indexed.typed located
  strings := by
    intro text place located
    exact (continues_withChanged found continues).initial? (indexed.strings text place located)
  usedDistinct := indexed.usedDistinct
  usedPresent := by
    intro place member
    obtain ⟨present, located⟩ := indexed.usedPresent place member
    rw [get?_withChanged found]
    split
    · exact ⟨other, rfl⟩
    · exact ⟨present, located⟩

theorem withString (indexed : segment.Indexed) {text : String} {id : GlobalId}
    (held : segment.initial? id = some (.utf16 text)) : (segment.withString text id).Indexed :=
  { indexed with strings := indexed.strings.withString held }

theorem withUsed (indexed : segment.Indexed) {id : GlobalId} {global : Global}
    (found : segment.get? id = some global) (isNew : id ∉ segment.used) :
    (segment.withUsed id).Indexed :=
  { indexed with
    usedDistinct := List.nodup_append.mpr ⟨indexed.usedDistinct, List.nodup_singleton id, by
      rintro other member last isLast rfl
      exact isNew (List.mem_singleton.mp isLast ▸ member)⟩
    usedPresent := by
      intro other member
      rcases List.mem_append.mp member with earlier | isLast
      · exact indexed.usedPresent other earlier
      · exact ⟨global, List.mem_singleton.mp isLast ▸ found⟩ }

theorem effect (indexed : before.Indexed) (effect : Effect request before after) :
    after.Indexed := by
  cases effect with
  | kept => exact indexed
  | added _ isFree typed => exact indexed.withGlobal isFree typed
  | changed found continues typed => exact indexed.withChanged found continues typed
  | interned isNew isFree =>
    exact (indexed.withGlobal isFree (typed_of_initial_eq_some rfl rfl)).withString
      (initial?_withGlobal_nextId before _)
  | used found isNew => exact indexed.withUsed found isNew

end Indexed

theorem indexed_of_answerAll (ran : answerAll requests empty = .ok segment) : segment.Indexed :=
  answerAll_preserves ran (fun _ reached => reached.Indexed) indexed_empty
    fun earlier answered => earlier.effect (effect_of_answer answered)

/-! ## Main result -/

theorem exists_get?_iff {id : GlobalId} :
    (∃ global, segment.get? id = some global) ↔ id.number < segment.size := by
  rw [← Option.isSome_iff_exists, get?, isSome_getElem?]
  rfl

theorem ids_numbered (segment : Segment) :
    segment.numbered.map Prod.fst = (List.range segment.size).map GlobalId.mk := by
  rw [numbered, List.map_map, size, List.range_eq_range', ← List.zipIdx_map_snd 0, List.map_map]
  rfl

theorem undefined_ascending (segment : Segment) :
    segment.undefined.Pairwise fun earlier later => earlier.number < later.number := by
  have ascending : (segment.numbered.map Prod.fst).Pairwise
      fun earlier later => earlier.number < later.number := by
    rw [ids_numbered, List.pairwise_map]
    exact List.pairwise_lt_range
  exact ascending.sublist (List.filter_sublist.map Prod.fst)

/-- Where the indexes agree with the globals, no two globals have one name. -/
theorem Indexed.names_nodup (indexed : segment.Indexed) :
    (segment.globals.map Global.name).Nodup := by
  rw [List.nodup_iff_injective_getElem]
  rintro ⟨first, firstInside⟩ ⟨second, secondInside⟩ same
  rw [List.length_map] at firstInside secondInside
  simp only [List.getElem_map] at same
  have firstFound : segment.findByName? segment.globals[first].name = some ⟨first⟩ :=
    indexed.names.mpr ⟨_, List.getElem?_eq_getElem firstInside, rfl⟩
  have secondFound : segment.findByName? segment.globals[first].name = some ⟨second⟩ :=
    indexed.names.mpr ⟨_, List.getElem?_eq_getElem secondInside, same.symm⟩
  have sameId := Option.some.inj (firstFound.symm.trans secondFound)
  exact Fin.ext (congrArg GlobalId.number sameId)

/-- What holds of a segment however it was filled. -/
structure WellFormed (segment : Segment) : Prop extends segment.Indexed where
  ids : ∀ id, (∃ global, segment.get? id = some global) ↔ id.number < segment.size
  namesDistinct : (segment.globals.map Global.name).Nodup
  undefined : ∀ id, id ∈ segment.undefined ↔
    ∃ global, segment.get? id = some global ∧ global.initial = none
  undefinedAscending : segment.undefined.Pairwise fun earlier later => earlier.number < later.number
  stringsApart : ∀ {first second : String} {id : GlobalId}, segment.strings.find? first = some id →
    segment.strings.find? second = some id → first = second

theorem Indexed.wellFormed (indexed : segment.Indexed) : segment.WellFormed where
  toIndexed := indexed
  ids := fun _ => exists_get?_iff
  namesDistinct := indexed.names_nodup
  undefined := fun _ => mem_undefined
  undefinedAscending := undefined_ascending segment
  stringsApart := by
    intro first second id firstFound secondFound
    have same := (indexed.strings first id firstFound).symm.trans
      (indexed.strings second id secondFound)
    injection same with same
    injection same

/-- In every segment that requests lead to, the indexes agree with the globals, and further
requests only append to it and fill in what is undefined. -/
theorem wellFormed_of_answerAll (ran : answerAll requests empty = .ok segment) :
    segment.WellFormed ∧ ∀ further after, answerAll further segment = .ok after →
      after.Continues segment :=
  ⟨(indexed_of_answerAll ran).wellFormed, fun _ _ continued => continues_of_answerAll continued⟩

/-- A global that is declared, used and defined later, a string asked for twice, and a global under
a name that is taken. -/
def sampleRequests : List Request :=
  [.declare "table" .ptr false .exported, .internString "text", .addUsed ⟨0⟩,
    .placeFresh "kstr:0" .null, .internString "text",
    .define ⟨0⟩ (.array .ptr [.globalAddress ⟨1⟩]), .setConstant ⟨0⟩ true, .addUsed ⟨0⟩,
    .declareInternal "open" .i32]

theorem sampleRequests_wellFormed :
    ∃ segment, answerAll sampleRequests empty = .ok segment ∧ segment.WellFormed ∧
      ∀ further after, answerAll further segment = .ok after → after.Continues segment := by
  have ran : ∃ segment, answerAll sampleRequests empty = .ok segment := ⟨_, rfl⟩
  obtain ⟨segment, ran⟩ := ran
  exact ⟨segment, ran, wellFormed_of_answerAll ran⟩

end Segment

end TypeRecords
