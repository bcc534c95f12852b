import Mathlib.Logic.Relation
import TypeRecords.Proofs.Segment.Growth

/-!
References between globals.

Owns the globals a constant refers to, what it means that a constant is well typed, and that a
segment is closed: every value has the type stored with its global, and refers to defined globals
only and never back to its own. An edit keeps a segment closed if the value it places is well typed
and refers to globals that were defined before. So references run against the order of definition
and form no circle.
-/

namespace TypeRecords

/-! ## Constants -/

namespace Constant

mutual

/-- The globals whose addresses occur in a constant, from left to right. -/
def globals : Constant → List GlobalId
  | .globalAddress id => [id]
  | .array _ items => globalsOfAll items
  | .struct members => globalsOfAll members
  | _ => []

def globalsOfAll : List Constant → List GlobalId
  | [] => []
  | item :: rest => globals item ++ globalsOfAll rest

end

mutual

/-- Whether the items of all arrays in a constant have the element type of their array. -/
def WellTyped : Constant → Prop
  | .array element items => (∀ item ∈ items, item.type = element) ∧ AllWellTyped items
  | .struct members => AllWellTyped members
  | _ => True

def AllWellTyped : List Constant → Prop
  | [] => True
  | item :: rest => WellTyped item ∧ AllWellTyped rest

end

theorem mem_globalsOfAll {id : GlobalId} {items : List Constant} :
    id ∈ globalsOfAll items ↔ ∃ item ∈ items, id ∈ item.globals := by
  induction items with
  | nil => simp [globalsOfAll]
  | cons item rest inductionHypothesis =>
    rw [globalsOfAll, List.mem_append, inductionHypothesis, List.exists_mem_cons_iff]

theorem allWellTyped_iff {items : List Constant} :
    AllWellTyped items ↔ ∀ item ∈ items, item.WellTyped := by
  induction items with
  | nil => simp [AllWellTyped]
  | cons item rest inductionHypothesis =>
    rw [AllWellTyped, inductionHypothesis, List.forall_mem_cons]

theorem wellTyped_array {element : DataType} {items : List Constant} :
    (Constant.array element items).WellTyped ↔
      ∀ item ∈ items, item.type = element ∧ item.WellTyped := by
  rw [WellTyped, allWellTyped_iff, ← forall₂_and]

theorem mem_globals_array {id : GlobalId} {element : DataType} {items : List Constant} :
    id ∈ (Constant.array element items).globals ↔ ∃ item ∈ items, id ∈ item.globals := by
  rw [globals, mem_globalsOfAll]

theorem mem_globals_struct {id : GlobalId} {members : List Constant} :
    id ∈ (Constant.struct members).globals ↔ ∃ member ∈ members, id ∈ member.globals := by
  rw [globals, mem_globalsOfAll]

end Constant

namespace Segment

variable {segment before after : Segment} {id : GlobalId} {global changed : Global}

/-! ## Closed segments -/

/-- Whether the initial value of one global contains the address of another. -/
def RefersTo (segment : Segment) (source target : GlobalId) : Prop :=
  ∃ value, segment.initial? source = some value ∧ target ∈ value.globals

/-- Whether a global is there and has an initial value. -/
def IsInitialized (segment : Segment) (id : GlobalId) : Prop :=
  ∃ value, segment.initial? id = some value

/-- Whether a constant may be placed: it is well typed and refers to defined globals only. -/
structure Admits (segment : Segment) (value : Constant) : Prop where
  wellTyped : value.WellTyped
  references : ∀ target ∈ value.globals, segment.IsInitialized target

/-- What holds of a segment in which everything placed was admitted. -/
structure Closed (segment : Segment) : Prop where
  typed : ∀ {id : GlobalId} {global : Global} {value : Constant}, segment.get? id = some global →
    global.initial = some value → global.type = value.type ∧ value.WellTyped
  references : ∀ {source target : GlobalId}, segment.RefersTo source target →
    segment.IsInitialized target
  acyclic : ∀ id, ¬ Relation.TransGen segment.RefersTo id id

theorem closed_empty : Closed empty := by
  have nothing : ∀ id, empty.initial? id = none := fun id => rfl
  refine ⟨fun found => ?_, fun related => ?_, fun id circle => ?_⟩
  · cases found
  · obtain ⟨value, held, _⟩ := related
    rw [nothing] at held
    cases held
  · obtain ⟨_, ⟨value, held, _⟩, _⟩ := Relation.TransGen.head'_iff.mp circle
    rw [nothing] at held
    cases held

theorem Extends.isInitialized (later : after.Extends before) (held : before.IsInitialized id) :
    after.IsInitialized id := by
  obtain ⟨value, held⟩ := held
  exact ⟨value, later.initial? held⟩

/-- Growth leaves no old global behind undefined, nor does it define one. -/
theorem Growth.isInitialized_iff (growth : Growth before after) {global : Global}
    (found : before.get? id = some global) : after.IsInitialized id ↔ before.IsInitialized id := by
  have same := (growth.extended.globals found).trans found.symm
  simp only [IsInitialized, initial?, same]

/-- Edges that leave a point nothing leads to close no circle. -/
theorem acyclic_of_unreferenced {α : Type} {old new : α → α → Prop} {fresh : α}
    (acyclic : ∀ point, ¬ Relation.TransGen old point point)
    (kept : ∀ source target, new source target → source ≠ fresh → old source target)
    (unreferenced : ∀ source target, new source target → target ≠ fresh) :
    ∀ point, ¬ Relation.TransGen new point point := by
  have onPath : ∀ {source target}, source ≠ fresh → Relation.TransGen new source target →
      Relation.TransGen old source target := by
    intro source target away path
    induction path with
    | single step => exact .single (kept _ _ step away)
    | tail path step inductionHypothesis =>
      obtain ⟨_, _, into⟩ := Relation.TransGen.tail'_iff.mp path
      exact .tail inductionHypothesis (kept _ _ step (unreferenced _ _ into))
  -- A circle returns to its start, which is therefore not the fresh point.
  intro point circle
  obtain ⟨_, _, into⟩ := Relation.TransGen.tail'_iff.mp circle
  exact acyclic point (onPath (unreferenced _ _ into) circle)

/-- Giving an undefined global an admitted value keeps a segment closed. -/
theorem Closed.initialize (closed : before.Closed) {initial : Option Constant}
    (undefined : before.initial? id = none)
    (effect : ∀ other, after.initial? other = if other = id then initial else before.initial? other)
    (typed : ∀ {other : GlobalId} {global : Global} {value : Constant},
      after.get? other = some global → global.initial = some value →
        global.type = value.type ∧ value.WellTyped)
    (references : ∀ value, initial = some value → ∀ target ∈ value.globals,
      before.IsInitialized target) : after.Closed := by
  -- `id` was undefined, so nothing led to it before, and the new value does not lead to it either.
  have notNew : ∀ {target}, before.IsInitialized target → target ≠ id := by
    rintro target ⟨value, held⟩ rfl
    rw [undefined] at held
    cases held
  have kept : ∀ {target value}, before.initial? target = some value →
      after.initial? target = some value := by
    intro target value held
    rw [effect, if_neg (notNew ⟨value, held⟩)]
    exact held
  have target_isInitialized : ∀ source target, after.RefersTo source target →
      before.IsInitialized target := by
    rintro source target ⟨value, held, member⟩
    rw [effect] at held
    split at held
    · exact references value held target member
    · exact closed.references ⟨value, held, member⟩
  refine ⟨typed, fun {source target} related => ?_, ?_⟩
  · obtain ⟨value, held⟩ := target_isInitialized source target related
    exact ⟨value, kept held⟩
  · refine acyclic_of_unreferenced closed.acyclic ?_
      fun source target related => notNew (target_isInitialized source target related)
    rintro source target ⟨value, held, member⟩ away
    rw [effect, if_neg away] at held
    exact ⟨value, held, member⟩

theorem Closed.withGlobal (closed : segment.Closed)
    (typed : ∀ value, global.initial = some value → global.type = value.type)
    (admitted : ∀ value, global.initial = some value → segment.Admits value) :
    (segment.withGlobal global).Closed := by
  have isOpen : segment.initial? segment.nextId = none := by
    rw [initial?, get?_nextId]
    rfl
  refine closed.initialize isOpen (fun other => initial?_withGlobal) ?_
    (fun value defined => (admitted value defined).references)
  intro other present value found defined
  rw [get?_withGlobal] at found
  split at found
  · cases found
    exact ⟨typed value defined, (admitted value defined).wellTyped⟩
  · exact closed.typed found defined

theorem Closed.withChanged (closed : segment.Closed) (found : segment.get? id = some global)
    (undefined : global.initial = none)
    (typed : ∀ value, changed.initial = some value → changed.type = value.type)
    (admitted : ∀ value, changed.initial = some value → segment.Admits value) :
    (segment.withChanged id changed).Closed := by
  have isOpen : segment.initial? id = none := by
    rw [initial?, found]
    exact undefined
  refine closed.initialize isOpen (fun other => initial?_withChanged found) ?_
    (fun value defined => (admitted value defined).references)
  intro other present value located defined
  rw [get?_withChanged found] at located
  split at located
  · cases located
    exact ⟨typed value defined, (admitted value defined).wellTyped⟩
  · exact closed.typed located defined

theorem Closed.placedGlobal (closed : segment.Closed) (name : String) {value : Constant}
    (admitted : segment.Admits value) :
    (segment.withGlobal (Segment.placedGlobal name value)).Closed := by
  refine closed.withGlobal ?_ ?_
  · rintro _ ⟨⟩
    rfl
  · rintro _ ⟨⟩
    exact admitted

/-! ## Edits of closed segments -/

theorem Closed.placeArray (closed : before.Closed) {name : String} {element : DataType}
    {items : List Constant} (placed : placeArray name element items before = .ok (id, after))
    (admitted : before.Admits (.array element items)) : after.Closed := by
  obtain ⟨_, rfl, rfl⟩ := placeArray_eq_ok.mp placed
  exact closed.placedGlobal _ admitted

theorem admits_utf16 (segment : Segment) (text : String) : segment.Admits (.utf16 text) :=
  ⟨trivial, fun target member => by cases member⟩

theorem admits_zero (segment : Segment) (type : DataType) : segment.Admits (.zero type) :=
  ⟨trivial, fun target member => by cases member⟩

theorem Closed.withString (closed : segment.Closed) (text : String) (id : GlobalId) :
    (segment.withString text id).Closed :=
  ⟨closed.typed, closed.references, closed.acyclic⟩

theorem Closed.withUsed (closed : segment.Closed) (used : List GlobalId) :
    Closed { segment with used } :=
  ⟨closed.typed, closed.references, closed.acyclic⟩

theorem Closed.internString (closed : before.Closed) {text : String}
    (interned : internString text before = .ok (id, after)) : after.Closed := by
  rcases internString_eq_ok.mp interned with ⟨_, rfl⟩ | ⟨_, _, rfl, rfl⟩
  · exact closed
  · exact (closed.placedGlobal _ (admits_utf16 before text)).withString text _

theorem Closed.placeWritable (closed : before.Closed) {name : String} {type : DataType}
    (placed : placeWritable name type before = .ok (id, after)) : after.Closed := by
  obtain ⟨_, rfl, rfl⟩ := placeWritable_eq_ok.mp placed
  refine closed.withGlobal ?_ ?_
  · rintro _ ⟨⟩
    rfl
  · rintro _ ⟨⟩
    exact admits_zero before type

end Segment

end TypeRecords
