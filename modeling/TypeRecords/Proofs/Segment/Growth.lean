import TypeRecords.Proofs.Outcome
import TypeRecords.Record.Resolved

/-!
How edits let a segment grow.

Owns the effect of every edit on the globals, written out once as an appended or a changed global,
and what can be read after it. A segment that only had globals and strings appended extends the
earlier one: whatever was read from the earlier segment can be read from the later, so a number
handed out stays valid however much is placed behind it.
-/

namespace TypeRecords

namespace Segment

open Outcome

/-! ## The effect of the edits -/

/-- The segment with a global appended. -/
def withGlobal (segment : Segment) (global : Global) : Segment :=
  { segment with
    globals := segment.globals ++ [global]
    names := segment.names.insert global.name ⟨segment.globals.length⟩ }

/-- The segment with a global in place of another. -/
def withChanged (segment : Segment) (id : GlobalId) (global : Global) : Segment :=
  { segment with globals := segment.globals.set id.number global }

/-- The segment with the place of a string entered. -/
def withString (segment : Segment) (text : String) (id : GlobalId) : Segment :=
  { segment with strings := segment.strings.insert text id }

/-- The number of the next global. -/
def nextId (segment : Segment) : GlobalId := ⟨segment.globals.length⟩

/-- A defined internal constant of that name. -/
def placedGlobal (name : String) (initial : Constant) : Global :=
  ⟨name, initial.type, some initial, true, .internal⟩

section Effects

variable {α β : Type} {before after : Segment} {name : String} {id : GlobalId} {initial : Constant}

theorem edit_bind_eq_ok {first : Edit α} {next : α → Edit β} {value : β} :
    (first >>= next) before = .ok (value, after) ↔
      ∃ answer middle, first before = .ok (answer, middle) ∧
        next answer middle = .ok (value, after) := by
  show ((first before) >>= fun result => next result.1 result.2) = .ok (value, after) ↔ _
  rw [bind_eq_ok, Prod.exists]

theorem edit_pure_eq_ok {first value : α} :
    (pure first : Edit α) before = .ok (value, after) ↔ first = value ∧ before = after := by
  show Except.ok (first, before) = .ok (value, after) ↔ _
  rw [Except.ok.injEq, Prod.mk.injEq]

theorem edit_get_bind {next : Segment → Edit β} :
    (get >>= next : Edit β) before = next before before := rfl

theorem edit_modify_eq_ok {change : Segment → Segment} {value : Unit} :
    (modify change : Edit Unit) before = .ok (value, after) ↔ change before = after := by
  show Except.ok ((), change before) = .ok (value, after) ↔ _
  simp

theorem declare_eq_ok {type : DataType} {constant : Bool} {linkage : Linkage} :
    declare name type constant linkage before = .ok (id, after) ↔
      before.names.find? name = none ∧ before.nextId = id ∧
        before.withGlobal ⟨name, type, none, constant, linkage⟩ = after := by
  unfold declare
  cases before.names.find? name with
  | none => simp [nextId, withGlobal]
  | some existing => simp

theorem modifyGlobal_eq_ok {change : Global → Except Fault Global} {value : Unit} :
    modifyGlobal id change before = .ok (value, after) ↔
      ∃ global changed, before.get? id = some global ∧ change global = .ok changed ∧
        before.withChanged id changed = after := by
  unfold modifyGlobal
  cases before.get? id with
  | none => simp
  | some global =>
    simp only [bind_eq_ok, pure_eq_ok]
    simp [withChanged]

theorem define_eq_ok {value : Unit} :
    define id initial before = .ok (value, after) ↔
      ∃ global, before.get? id = some global ∧ global.initial = none ∧
        before.withChanged id { global with type := initial.type, initial := some initial } =
          after := by
  unfold define
  rw [modifyGlobal_eq_ok]
  refine exists_congr fun global => ?_
  cases undefined : global.initial with
  | none => simp [Global.isDefined, undefined]
  | some present => simp [Global.isDefined, undefined]

theorem setConstant_eq_ok {constant : Bool} {value : Unit} :
    setConstant id constant before = .ok (value, after) ↔
      ∃ global, before.get? id = some global ∧
        before.withChanged id { global with constant } = after := by
  unfold setConstant
  rw [modifyGlobal_eq_ok]
  simp

theorem get?_withGlobal_nextId (segment : Segment) (global : Global) :
    (segment.withGlobal global).get? segment.nextId = some global := by
  simp [get?, withGlobal, nextId]

/-- Changing the global that was appended last is appending the changed one. -/
theorem withChanged_withGlobal (segment : Segment) (global changed : Global)
    (sameName : changed.name = global.name) :
    (segment.withGlobal global).withChanged segment.nextId changed =
      segment.withGlobal changed := by
  simp [withGlobal, withChanged, nextId, sameName]

theorem define_withGlobal_eq_ok {global : Global} {value : Unit}
    (undefined : global.initial = none) :
    define before.nextId initial (before.withGlobal global) = .ok (value, after) ↔
      before.withGlobal { global with type := initial.type, initial := some initial } = after := by
  rw [define_eq_ok, get?_withGlobal_nextId]
  constructor
  · rintro ⟨_, same, _, rfl⟩
    cases same
    rw [withChanged_withGlobal]
    rfl
  · rintro rfl
    exact ⟨global, rfl, undefined, withChanged_withGlobal before global _ rfl⟩

theorem setConstant_withGlobal_eq_ok {global : Global} {constant : Bool} {value : Unit} :
    setConstant before.nextId constant (before.withGlobal global) = .ok (value, after) ↔
      before.withGlobal { global with constant } = after := by
  rw [setConstant_eq_ok, get?_withGlobal_nextId]
  constructor
  · rintro ⟨_, same, rfl⟩
    cases same
    rw [withChanged_withGlobal]
    rfl
  · rintro rfl
    exact ⟨global, rfl, withChanged_withGlobal before global _ rfl⟩

theorem place_eq_ok :
    place name initial before = .ok (id, after) ↔
      before.names.find? name = none ∧ before.nextId = id ∧
        before.withGlobal (placedGlobal name initial) = after := by
  unfold place
  simp only [edit_bind_eq_ok, declare_eq_ok, edit_pure_eq_ok]
  constructor
  · rintro ⟨_, _, ⟨free, rfl, rfl⟩, _, _, defined, rfl, rfl⟩
    exact ⟨free, rfl, (define_withGlobal_eq_ok rfl).mp defined⟩
  · rintro ⟨free, rfl, rfl⟩
    exact ⟨_, _, ⟨free, rfl, rfl⟩, (), _, (define_withGlobal_eq_ok rfl).mpr rfl, rfl, rfl⟩

theorem internString_eq_ok {text : String} :
    internString text before = .ok (id, after) ↔
      (before.strings.find? text = some id ∧ before = after) ∨
      (before.strings.find? text = none ∧
        before.names.find? s!"kstr:{before.strings.size}" = none ∧ before.nextId = id ∧
        (before.withGlobal (placedGlobal s!"kstr:{before.strings.size}" (.utf16 text))).withString
          text id = after) := by
  unfold internString
  rw [edit_get_bind]
  cases before.strings.find? text with
  | none =>
    simp only [edit_bind_eq_ok, place_eq_ok, edit_modify_eq_ok, edit_pure_eq_ok]
    constructor
    · rintro ⟨_, _, ⟨free, rfl, rfl⟩, _, _, rfl, rfl, rfl⟩
      exact .inr ⟨trivial, free, rfl, rfl⟩
    · rintro (⟨absent, _⟩ | ⟨_, free, rfl, rfl⟩)
      · cases absent
      · exact ⟨_, _, ⟨free, rfl, rfl⟩, (), _, rfl, rfl, rfl⟩
  | some existing => simp [edit_pure_eq_ok]

theorem addUsed_eq_ok {value : Unit} (added : addUsed id before = .ok (value, after)) :
    ∃ used, { before with used } = after ∧ (∃ global, before.get? id = some global) ∧
      (used = before.used ∨ (id ∉ before.used ∧ used = before.used ++ [id])) := by
  unfold addUsed at added
  split at added
  · rename_i inside
    have present : before.get? id = some before.globals[id.number] :=
      List.getElem?_eq_getElem inside
    split at added
    · cases added
      exact ⟨_, rfl, ⟨_, present⟩, .inl rfl⟩
    · rename_i isNew
      cases added
      exact ⟨_, rfl, ⟨_, present⟩, .inr ⟨by simpa [isUsed] using isNew, rfl⟩⟩
  · cases added

/-! ## Edits under fresh names -/

theorem declareExported_eq_ok {symbol : String} {type : DataType}
    {result : Except GlobalId GlobalId} :
    declareExported symbol type before = .ok (result, after) ↔
      (∃ existing, before.findByName? symbol = some existing ∧ .error existing = result ∧
        before = after) ∨
      (before.findByName? symbol = none ∧ .ok before.nextId = result ∧
        before.withGlobal ⟨symbol, type, none, false, .exported⟩ = after) := by
  unfold declareExported
  rw [edit_get_bind]
  cases found : before.findByName? symbol with
  | some existing => simp [edit_pure_eq_ok]
  | none =>
    have free : before.names.find? symbol = none := found
    simp only [edit_bind_eq_ok, declare_eq_ok, edit_pure_eq_ok]
    simp [free]

theorem placeFresh_eq_ok :
    placeFresh name initial before = .ok (id, after) ↔
      before.names.find? (before.unusedName name) = none ∧ before.nextId = id ∧
        before.withGlobal (placedGlobal (before.unusedName name) initial) = after := by
  unfold placeFresh
  rw [edit_get_bind, place_eq_ok]

theorem placeArray_eq_ok {element : DataType} {items : List Constant} :
    placeArray name element items before = .ok (id, after) ↔
      before.names.find? (before.unusedName name) = none ∧ before.nextId = id ∧
        before.withGlobal (placedGlobal (before.unusedName name) (.array element items)) = after :=
  placeFresh_eq_ok

theorem declareFresh_eq_ok {type : DataType} :
    declareFresh name type before = .ok (id, after) ↔
      before.names.find? (before.unusedName name) = none ∧ before.nextId = id ∧
        before.withGlobal ⟨before.unusedName name, type, none, false, .internal⟩ = after := by
  unfold declareFresh declareInternal
  rw [edit_get_bind, declare_eq_ok]

theorem placeWritable_eq_ok {type : DataType} :
    placeWritable name type before = .ok (id, after) ↔
      before.names.find? (before.unusedName name) = none ∧ before.nextId = id ∧
        before.withGlobal ⟨before.unusedName name, type, some (.zero type), false, .internal⟩ =
          after := by
  unfold placeWritable
  simp only [edit_bind_eq_ok, declareFresh_eq_ok, edit_pure_eq_ok]
  constructor
  · rintro ⟨_, _, ⟨free, rfl, rfl⟩, _, _, defined, rfl, rfl⟩
    exact ⟨free, rfl, (define_withGlobal_eq_ok rfl).mp defined⟩
  · rintro ⟨free, rfl, rfl⟩
    exact ⟨_, _, ⟨free, rfl, rfl⟩, (), _, (define_withGlobal_eq_ok rfl).mpr rfl, rfl, rfl⟩

end Effects

/-! ## Reading after an edit -/

section Reading

variable {segment : Segment} {id other : GlobalId} {global changed : Global}

theorem get?_withGlobal :
    (segment.withGlobal global).get? other =
      if other = segment.nextId then some global else segment.get? other := by
  by_cases isNew : other = segment.nextId
  · rw [if_pos isNew, isNew, get?_withGlobal_nextId]
  · -- All other places are those of the shorter list.
    rw [if_neg isNew]
    have differs : other.number ≠ segment.globals.length := by
      intro same
      exact isNew (by cases other; simp_all [nextId])
    show (segment.globals ++ [global])[other.number]? = segment.globals[other.number]?
    rcases Nat.lt_or_gt_of_ne differs with inside | outside
    · exact List.getElem?_append_left inside
    · rw [List.getElem?_eq_none (Nat.le_of_lt outside), List.getElem?_eq_none]
      rw [List.length_append, List.length_singleton]
      omega

theorem get?_nextId (segment : Segment) : segment.get? segment.nextId = none :=
  List.getElem?_eq_none (Nat.le_refl _)

/-- A global that is there has another number than the next one. -/
theorem ne_nextId_of_get? (found : segment.get? id = some global) : id ≠ segment.nextId := by
  rintro rfl
  rw [get?_nextId] at found
  cases found

theorem get?_withChanged (found : segment.get? id = some global) :
    (segment.withChanged id changed).get? other =
      if other = id then some changed else segment.get? other := by
  have inside : id.number < segment.globals.length := by
    obtain ⟨bound, _⟩ := List.getElem?_eq_some_iff.mp found
    exact bound
  unfold get? withChanged
  by_cases same : other = id
  · rw [if_pos same, same]
    exact List.getElem?_set_self inside
  · rw [if_neg same]
    refine List.getElem?_set_ne fun sameNumber => same ?_
    cases id
    cases other
    simp_all

theorem initial?_eq_some {value : Constant} :
    segment.initial? id = some value ↔
      ∃ global, segment.get? id = some global ∧ global.initial = some value :=
  Option.bind_eq_some_iff

/-- The globals listed as undefined are those that are there without an initial value. -/
theorem mem_undefined :
    id ∈ segment.undefined ↔ ∃ global, segment.get? id = some global ∧ global.initial = none := by
  obtain ⟨number⟩ := id
  unfold undefined numbered get? Global.isDefined
  simp [List.mem_zipIdx_iff_getElem?]

theorem initial?_withGlobal :
    (segment.withGlobal global).initial? other =
      if other = segment.nextId then global.initial else segment.initial? other := by
  unfold initial?
  rw [get?_withGlobal]
  split <;> rfl

theorem initial?_withChanged (found : segment.get? id = some global) :
    (segment.withChanged id changed).initial? other =
      if other = id then changed.initial else segment.initial? other := by
  unfold initial?
  rw [get?_withChanged found]
  split <;> rfl

end Reading

/-! ## Placing a record -/

theorem withChanged_withChanged (segment : Segment) (id : GlobalId) (first second : Global) :
    (segment.withChanged id first).withChanged id second = segment.withChanged id second := by
  simp [withChanged, List.set_set]

/-- The value of a record global: the record, and the virtual table behind it if there is one. -/
def recordInitial (record : TypeRecord) : Option Constant → Constant
  | some table => .struct [record.constant, table]
  | none => record.constant

/-- A record global in its final state. -/
def completedGlobal (declared : Global) (initial : Constant) : Global :=
  { declared with type := initial.type, initial := some initial, constant := true }

section Records

variable {before after : Segment} {id : GlobalId}

/-- A list of checks passes where each of them does, and edits nothing. -/
theorem edit_forM_check_eq_ok {α : Type} {items : List α} {check : α → Except Fault Unit}
    {value : Unit} :
    (items.forM fun item => (liftM (check item) : Edit Unit)) before = .ok (value, after) ↔
      (∀ item ∈ items, check item = .ok ()) ∧ before = after := by
  induction items with
  | nil => simp [edit_pure_eq_ok]
  | cons item rest inductionHypothesis =>
    show ((liftM (check item) : Edit Unit) >>= fun _ => rest.forM _) before = _ ↔ _
    rw [edit_bind_eq_ok, List.forall_mem_cons]
    have lifted : ∀ middle answer, (liftM (check item) : Edit Unit) before = .ok (answer, middle) ↔
        check item = .ok () ∧ before = middle := by
      intro middle answer
      show ((check item) >>= fun answer => pure (answer, before)) = _ ↔ _
      cases check item <;> simp [bind, Except.bind, pure, Except.pure]
    constructor
    · rintro ⟨answer, middle, checked, remaining⟩
      obtain ⟨passed, rfl⟩ := (lifted middle answer).mp checked
      obtain ⟨others, same⟩ := inductionHypothesis.mp remaining
      exact ⟨⟨passed, others⟩, same⟩
    · rintro ⟨⟨passed, others⟩, same⟩
      exact ⟨(), before, (lifted before ()).mpr ⟨passed, rfl⟩,
        inductionHypothesis.mpr ⟨others, same⟩⟩

theorem placeRecord_eq_ok {record : TypeRecord} {virtualTable : Option Constant} {value : Unit} :
    placeRecord id record virtualTable before = .ok (value, after) ↔
      (∀ table ∈ record.tables, before.checkTable table.1 table.2 = .ok ()) ∧
        ∃ global, before.get? id = some global ∧ global.initial = none ∧
          before.withChanged id (completedGlobal global (recordInitial record virtualTable)) =
            after := by
  have unfolded : placeRecord id record virtualTable before =
      ((record.tables.forM fun table => (liftM (before.checkTable table.1 table.2) : Edit Unit)) >>=
        fun _ => define id (recordInitial record virtualTable) >>= fun _ =>
          setConstant id true) before := by
    cases virtualTable <;> rfl
  rw [unfolded]
  simp only [edit_bind_eq_ok, edit_forM_check_eq_ok, define_eq_ok, setConstant_eq_ok]
  constructor
  · rintro ⟨_, _, ⟨passed, rfl⟩, _, _, ⟨global, found, undefined, rfl⟩, changed, located, rfl⟩
    rw [get?_withChanged found, if_pos rfl, Option.some.injEq] at located
    subst located
    refine ⟨passed, global, found, undefined, ?_⟩
    rw [withChanged_withChanged]
    rfl
  · rintro ⟨passed, global, found, undefined, rfl⟩
    refine ⟨(), before, ⟨passed, rfl⟩, (), _, ⟨global, found, undefined, rfl⟩,
      { global with
        type := (recordInitial record virtualTable).type
        initial := some (recordInitial record virtualTable) }, ?_, ?_⟩
    · rw [get?_withChanged found, if_pos rfl]
    · rw [withChanged_withChanged]
      rfl

end Records

/-! ## Extension -/

/-- Whether all globals and strings of an earlier segment are still there, unchanged. -/
structure Extends (later earlier : Segment) : Prop where
  globals : ∀ {id : GlobalId} {global : Global}, earlier.get? id = some global →
    later.get? id = some global
  strings : ∀ {text : String} {id : GlobalId}, earlier.strings.find? text = some id →
    later.strings.find? text = some id

namespace Extends

variable {first second third : Segment} {id : GlobalId}

theorem refl (segment : Segment) : segment.Extends segment :=
  ⟨fun found => found, fun found => found⟩

theorem trans (later : third.Extends second) (earlier : second.Extends first) :
    third.Extends first :=
  ⟨fun found => later.globals (earlier.globals found),
    fun found => later.strings (earlier.strings found)⟩

theorem initial? (later : second.Extends first) {value : Constant}
    (held : first.initial? id = some value) : second.initial? id = some value := by
  obtain ⟨global, found, defined⟩ := initial?_eq_some.mp held
  exact initial?_eq_some.mpr ⟨global, later.globals found, defined⟩

end Extends

theorem extends_withGlobal (segment : Segment) (global : Global) :
    (segment.withGlobal global).Extends segment := by
  refine ⟨fun found => ?_, fun found => found⟩
  rw [get?_withGlobal, if_neg (ne_nextId_of_get? found)]
  exact found

theorem extends_withString {segment : Segment} {text : String}
    (isNew : segment.strings.find? text = none) (id : GlobalId) :
    (segment.withString text id).Extends segment := by
  refine ⟨fun found => found, fun {other} place found => ?_⟩
  have differs : other ≠ text := by
    rintro rfl
    rw [isNew] at found
    cases found
  show (segment.strings.insert text id).find? other = some place
  rw [OrderedMap.find?_insert, if_neg differs]
  exact found

/-- Whether a global is a placed array with these items. -/
def HoldsArray (segment : Segment) (id : GlobalId) (element : DataType) (items : List Constant) :
    Prop :=
  ∃ name, segment.get? id = some (placedGlobal name (.array element items))

theorem HoldsArray.initial? {segment : Segment} {id : GlobalId} {element : DataType}
    {items : List Constant} (held : segment.HoldsArray id element items) :
    segment.initial? id = some (.array element items) := by
  obtain ⟨name, found⟩ := held
  exact initial?_eq_some.mpr ⟨_, found, rfl⟩

/-! ## Edits that leave nothing open -/

/-- Whether every interned string is where the segment says. -/
def Interned (segment : Segment) : Prop :=
  ∀ text id, segment.strings.find? text = some id → segment.initial? id = some (.utf16 text)

/-- Whether a segment was extended by defined globals and strings. -/
structure Growth (before after : Segment) : Prop where
  extended : after.Extends before
  interned : before.Interned → after.Interned
  undefined : ∀ {id : GlobalId} {global : Global}, after.get? id = some global →
    global.initial = none → before.get? id = some global

section Growing

variable {segment before after : Segment} {id : GlobalId}

theorem Growth.refl (segment : Segment) : Growth segment segment :=
  ⟨.refl segment, fun interned => interned, fun found _ => found⟩

theorem Growth.trans {middle : Segment} (first : Growth before middle)
    (second : Growth middle after) : Growth before after :=
  ⟨second.extended.trans first.extended, fun interned => second.interned (first.interned interned),
    fun found isOpen => first.undefined (second.undefined found isOpen) isOpen⟩

theorem initial?_withGlobal_nextId (segment : Segment) (global : Global) :
    (segment.withGlobal global).initial? segment.nextId = global.initial := by
  rw [initial?, get?_withGlobal_nextId]
  rfl

theorem Interned.withGlobal (interned : segment.Interned) (global : Global) :
    (segment.withGlobal global).Interned :=
  fun text id found => (extends_withGlobal segment global).initial? (interned text id found)

theorem Interned.withString {text : String} (interned : segment.Interned)
    (held : segment.initial? id = some (.utf16 text)) : (segment.withString text id).Interned := by
  intro other place found
  have located : (segment.strings.insert text id).find? other = some place := found
  rw [OrderedMap.find?_insert] at located
  split at located
  · rename_i same
    cases located
    rw [same]
    exact held
  · exact interned other place located

/-- Defining a global leaves the strings where they are. -/
theorem Interned.withChanged (interned : segment.Interned) {global : Global}
    (found : segment.get? id = some global) (undefined : global.initial = none)
    (changed : Global) : (segment.withChanged id changed).Interned := by
  intro text place located
  have held := interned text place located
  have differs : place ≠ id := by
    rintro rfl
    rw [initial?, found] at held
    rw [show (some global).bind Global.initial = global.initial from rfl, undefined] at held
    cases held
  rw [initial?_withChanged found, if_neg differs]
  exact held

theorem growth_withGlobal {global : Global} {value : Constant}
    (defined : global.initial = some value) : Growth segment (segment.withGlobal global) := by
  refine ⟨extends_withGlobal segment global, fun interned => interned.withGlobal global, ?_⟩
  intro id present found isOpen
  rw [get?_withGlobal] at found
  split at found
  · cases found
    rw [defined] at isOpen
    cases isOpen
  · exact found

theorem growth_withString {text : String} (isNew : segment.strings.find? text = none)
    (held : segment.initial? id = some (.utf16 text)) :
    Growth segment (segment.withString text id) :=
  ⟨extends_withString isNew id, fun interned => interned.withString held, fun found _ => found⟩

theorem growth_placeArray {name : String} {element : DataType} {items : List Constant}
    (placed : placeArray name element items before = .ok (id, after)) :
    Growth before after ∧ after.HoldsArray id element items := by
  obtain ⟨_, rfl, rfl⟩ := placeArray_eq_ok.mp placed
  exact ⟨growth_withGlobal rfl, _, get?_withGlobal_nextId _ _⟩

theorem growth_internString {text : String}
    (interned : internString text before = .ok (id, after)) :
    Growth before after ∧ (before.Interned → after.initial? id = some (.utf16 text)) := by
  rcases internString_eq_ok.mp interned with ⟨known, rfl⟩ | ⟨isNew, _, rfl, rfl⟩
  · exact ⟨.refl before, fun interned => interned text id known⟩
  · have held := initial?_withGlobal_nextId before
      (placedGlobal s!"kstr:{before.strings.size}" (.utf16 text))
    refine ⟨(growth_withGlobal rfl).trans (growth_withString ?_ held), fun _ => held⟩
    exact isNew

theorem growth_placeWritable {name : String} {type : DataType}
    (placed : placeWritable name type before = .ok (id, after)) :
    Growth before after ∧ after.initial? id = some (.zero type) := by
  obtain ⟨_, rfl, rfl⟩ := placeWritable_eq_ok.mp placed
  exact ⟨growth_withGlobal rfl, initial?_withGlobal_nextId _ _⟩

theorem growth_withUsed (segment : Segment) (used : List GlobalId) :
    Growth segment { segment with used } :=
  ⟨⟨fun found => found, fun found => found⟩, fun interned => interned, fun found _ => found⟩

end Growing

end Segment

end TypeRecords
