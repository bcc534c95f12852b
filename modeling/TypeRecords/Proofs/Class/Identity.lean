import Mathlib.Data.List.Induction
import Mathlib.Data.List.Nodup
import TypeRecords.Class.Catalog
import TypeRecords.Proofs.Outcome

/-!
The numbers of classes and functions while a catalog is filled.

Owns what sequences of requests to a catalog keep. A class gets its number with its name, whether it
is declared or defined first, and a definition only fills in what stands under that number. So a
request has one of four effects, and what is known under a name changes in one of them only: where
the name is new. From the effects follows, for a run of any length, that names and numbers belong
together one by one, that the root class has its fixed number, that the definitions are those that
were asked for, one for a name at most, and that nothing assigned is ever taken back.
-/

namespace TypeRecords

/-! ## Least unused numbers -/

theorem leastUnused_spec (used : List Nat) (start : Nat) :
    leastUnused used start ∉ used ∧ start ≤ leastUnused used start := by
  rw [leastUnused]
  cases searched : (List.range' start (used.length + 1)).find? fun number => number ∉ used with
  | some number =>
    have isFree := List.find?_some searched
    have listed := List.mem_range'_1.mp (List.mem_of_find?_eq_some searched)
    exact ⟨by simpa using isFree, listed.1⟩
  | none =>
    have taken : List.range' start (used.length + 1) ⊆ used := by
      intro number listed
      simpa using List.find?_eq_none.mp searched number listed
    have distinct : (List.range' start (used.length + 1)).Nodup := List.nodup_range'
    have tooMany := distinct.length_le_of_subset taken
    rw [List.length_range'] at tooMany
    omega

namespace Catalog

open Outcome

/-! ## Requests -/

/-- A request to a catalog that is being filled. -/
inductive Request where
  | declare (name : QualifiedName)
  | define (definition : ClassDefinition)
  | insertFunction (name : Option QualifiedName)
  | registerBox (box value : ClassId)

/-- What a request is answered with. -/
inductive Answer where
  | ofClass (id : ClassId)
  | ofFunction (id : FunctionId)
  | done

/-- The requests of a run with their answers, in order. -/
abbrev History := List (Request × Answer)

/-- The catalog a request leads to, and its answer. -/
def Request.answer : Request → Catalog → Except Fault (Catalog × Answer)
  | .declare name, catalog =>
    .ok ((catalog.declareClass name).1, .ofClass (catalog.declareClass name).2)
  | .define definition, catalog => do
    let (after, id) ← catalog.defineClass definition
    return (after, .ofClass id)
  | .insertFunction name, catalog =>
    .ok ((catalog.insertFunction name).1, .ofFunction (catalog.insertFunction name).2)
  | .registerBox box value, catalog => do
    let after ← catalog.registerBox box value
    return (after, .done)

/-- The catalog that requests lead to one after the other, and their answers. A fault ends them. -/
def answerAll (requests : List Request) (before : Catalog) : Except Fault (Catalog × History) :=
  requests.foldlM
    (fun (catalog, history) request => do
      let (after, answer) ← request.answer catalog
      return (after, history ++ [(request, answer)]))
    (before, [])

/-- The name of the class that a request is about. -/
def Request.className? : Request → Option QualifiedName
  | .declare name => some name
  | .define definition => some definition.name
  | .insertFunction _ | .registerBox .. => none

/-- What a request puts under the number of its class. Where the name is known, declaring it puts
nothing there. -/
def Request.entry? : Request → Option ClassEntry
  | .declare name => some (.declared name)
  | .define definition => some (.defined definition)
  | .insertFunction _ | .registerBox .. => none

def Answer.classId? : Answer → Option ClassId
  | .ofClass id => some id
  | .ofFunction _ | .done => none

/-- The number that was answered last for a name. -/
def lastAnswered? (history : History) (name : QualifiedName) : Option ClassId :=
  history.reverse.findSome? fun entry =>
    if entry.1.className? = some name then entry.2.classId? else none

variable {catalog before middle after : Catalog} {request : Request} {requests : List Request}
  {answer : Answer} {history : History} {id : ClassId} {name : QualifiedName}
  {definition : ClassDefinition} {entry : ClassEntry}

theorem Request.className?_of_entry? (gives : request.entry? = some entry) :
    request.className? = some entry.name := by
  cases request <;> cases gives <;> rfl

/-- Only a request to define a class gives a definition, and it gives that one. -/
theorem Request.definition?_of_entry? (gives : request.entry? = some entry) :
    entry.definition? = some definition ↔ request = .define definition := by
  cases request <;> cases gives <;> simp [ClassEntry.definition?]

/-- What each request preserves holds after all of them. The property may speak about the requests
so far and their answers. -/
theorem answerAll_preserves (ran : answerAll requests before = .ok (after, history))
    (holds : History → Catalog → Prop) (start : holds [] before)
    (each : ∀ {done request middle reached answer}, holds done middle →
      request.answer middle = .ok (reached, answer) → holds (done ++ [(request, answer)]) reached) :
    holds history after := by
  induction requests using List.reverseRecOn generalizing after history with
  | nil =>
    cases ran
    exact start
  | append_singleton earlier last inductionHypothesis =>
    rw [answerAll, List.foldlM_append] at ran
    obtain ⟨⟨middle, done⟩, ranEarlier, ranLast⟩ := bind_eq_ok.mp ran
    rw [List.foldlM_cons] at ranLast
    obtain ⟨reached, stepped, same⟩ := bind_eq_ok.mp ranLast
    obtain ⟨⟨next, answer⟩, answered, built⟩ := bind_eq_ok.mp stepped
    obtain rfl := pure_eq_ok.mp built
    cases same
    exact each (inductionHypothesis ranEarlier) answered

/-! ## Names and numbers -/

theorem className?_eq_some :
    catalog.className? id = some name ↔
      ∃ entry, catalog.classes.find? id = some entry ∧ entry.name = name :=
  Option.map_eq_some_iff

theorem className?_of_definition? (defined : catalog.definition? id = some definition) :
    catalog.className? id = some definition.name := by
  obtain ⟨entry, found, isDefinition⟩ := Option.bind_eq_some_iff.mp defined
  cases entry with
  | declared _ => cases isDefinition
  | defined _ =>
    cases isDefinition
    exact className?_eq_some.mpr ⟨_, found, rfl⟩

/-- The catalog with an entry under a number. -/
def withClass (catalog : Catalog) (id : ClassId) (entry : ClassEntry) : Catalog :=
  { catalog with classes := catalog.classes.insert id entry }

theorem find?_withClass (catalog : Catalog) (id other : ClassId) (entry : ClassEntry) :
    (catalog.withClass id entry).classes.find? other =
      if other = id then some entry else catalog.classes.find? other :=
  OrderedMap.find?_insert _ _ _ _

/-- Whether the names of a catalog belong to one number each, and that of the root class to its
fixed number and no other. -/
structure Named (catalog : Catalog) : Prop where
  apart : ∀ {first second : ClassId} {name : QualifiedName}, catalog.className? first = some name →
    catalog.className? second = some name → first = second
  root : ∀ {id : ClassId} {name : QualifiedName}, catalog.className? id = some name →
    (id = ClassId.root ↔ name = rootName)

/-- Where no two classes have one name, a name is found under the number it belongs to. -/
theorem Named.findClass?_eq_some (named : catalog.Named) :
    catalog.findClass? name = some id ↔ catalog.className? id = some name := by
  constructor
  · intro found
    obtain ⟨⟨place, entry⟩, located, rfl⟩ := Option.map_eq_some_iff.mp found
    have sameName := List.find?_some located
    exact className?_eq_some.mpr ⟨entry,
      OrderedMap.find?_eq_some_iff.mpr (List.mem_of_find?_eq_some located), by simpa using sameName⟩
  · intro known
    obtain ⟨entry, found, sameName⟩ := className?_eq_some.mp known
    cases searched : catalog.findClass? name with
    | some other =>
      obtain ⟨⟨place, present⟩, located, rfl⟩ := Option.map_eq_some_iff.mp searched
      have presentName := List.find?_some located
      have knownOther : catalog.className? place = some name := className?_eq_some.mpr ⟨present,
        OrderedMap.find?_eq_some_iff.mpr (List.mem_of_find?_eq_some located),
        by simpa using presentName⟩
      rw [named.apart known knownOther]
    | none =>
      have missing := List.find?_eq_none.mp (Option.map_eq_none_iff.mp searched) (id, entry)
        (OrderedMap.find?_eq_some_iff.mp found)
      exact absurd sameName (by simpa using missing)

/-! ## The effect of a request -/

/-- Whether a name belongs to a number, or both are free and may come together. -/
inductive Assignable (catalog : Catalog) (name : QualifiedName) (id : ClassId) : Prop
  | known (isKnown : catalog.className? id = some name)
  | free (nameFree : catalog.findClass? name = none) (idFree : catalog.classes.find? id = none)
      (root : id = ClassId.root ↔ name = rootName)

/-- What a request can do to a catalog, and what it is answered. -/
inductive Effect (request : Request) (before : Catalog) : Catalog → Answer → Prop
  | known {id : ClassId} {name : QualifiedName} (declares : request = .declare name)
      (isKnown : before.className? id = some name) : Effect request before before (.ofClass id)
  | assigned {id : ClassId} {entry : ClassEntry} {after : Catalog}
      (gives : request.entry? = some entry)
      (assignable : before.Assignable entry.name id) (undefined : before.definition? id = none)
      (classes : ∀ other, after.classes.find? other =
        if other = id then some entry else before.classes.find? other)
      (functions : after.functions = before.functions) :
      Effect request before after (.ofClass id)
  | function {id : FunctionId} {name : Option QualifiedName} {after : Catalog}
      (asks : request.className? = none) (isFree : before.functions.find? id = none)
      (classes : after.classes = before.classes)
      (functions : after.functions = before.functions.insert id name) :
      Effect request before after (.ofFunction id)
  | box {after : Catalog} (asks : request.className? = none)
      (classes : after.classes = before.classes) (functions : after.functions = before.functions) :
      Effect request before after .done

theorem find?_nextClassId (catalog : Catalog) :
    catalog.classes.find? catalog.nextClassId = none := by
  by_contra present
  obtain ⟨entry, found⟩ := Option.ne_none_iff_exists'.mp present
  have used := List.mem_map_of_mem (f := ClassId.number)
    (OrderedMap.mem_keys_iff.mpr ⟨entry, found⟩)
  exact (leastUnused_spec _ _).1 used

theorem nextClassId_ne_root (catalog : Catalog) : catalog.nextClassId ≠ ClassId.root := by
  intro same
  have above := (leastUnused_spec (catalog.classes.keys.map ClassId.number)
    (ClassId.root.number + 1)).2
  have number := congrArg ClassId.number same
  simp only [nextClassId] at number
  omega

theorem find?_insertFunction (catalog : Catalog) (name : Option QualifiedName) :
    catalog.functions.find? (catalog.insertFunction name).2 = none := by
  by_contra present
  obtain ⟨entry, found⟩ := Option.ne_none_iff_exists'.mp present
  have used := List.mem_map_of_mem (f := FunctionId.number)
    (OrderedMap.mem_keys_iff.mpr ⟨entry, found⟩)
  exact (leastUnused_spec _ _).1 used

/-- Declaring a class finds the number of its name, or gives it a free one. -/
theorem Named.declareClass_cases (named : before.Named) (name : QualifiedName) :
    (∃ id, before.className? id = some name ∧ before.declareClass name = (before, id)) ∨
      ∃ id, before.findClass? name = none ∧ before.classes.find? id = none ∧
        (id = ClassId.root ↔ name = rootName) ∧
        before.declareClass name = (before.withClass id (.declared name), id) := by
  unfold declareClass
  by_cases isRoot : name = rootName
  · rw [if_pos isRoot]
    cases found : before.classes.find? ClassId.root with
    | some entry =>
      have known : before.className? ClassId.root = some entry.name :=
        className?_eq_some.mpr ⟨entry, found, rfl⟩
      have sameName : entry.name = name := ((named.root known).mp rfl).trans isRoot.symm
      refine .inl ⟨ClassId.root, sameName ▸ known, ?_⟩
      rw [if_pos (by rw [OrderedMap.contains, found]; rfl)]
    | none =>
      refine .inr ⟨ClassId.root, ?_, found, ⟨fun _ => isRoot, fun _ => rfl⟩, ?_⟩
      · by_contra present
        obtain ⟨other, searched⟩ := Option.ne_none_iff_exists'.mp present
        have known := named.findClass?_eq_some.mp searched
        obtain ⟨entry, located, _⟩ := className?_eq_some.mp known
        rw [(named.root known).mpr isRoot, found] at located
        cases located
      · rw [if_neg (by rw [OrderedMap.contains, found]; simp)]
        rfl
  · rw [if_neg isRoot]
    cases searched : before.findClass? name with
    | some id => exact .inl ⟨id, named.findClass?_eq_some.mp searched, rfl⟩
    | none =>
      refine .inr ⟨before.nextClassId, rfl, find?_nextClassId before, ?_, rfl⟩
      exact ⟨fun same => absurd same (nextClassId_ne_root before), fun same => absurd same isRoot⟩

/-- A definition fails where the name is defined already, and otherwise fills in what stands under
the number of the name. -/
theorem Named.defineClass_cases (named : before.Named) (definition : ClassDefinition) :
    (∃ id existing, before.className? id = some definition.name ∧
        before.definition? id = some existing ∧ before.defineClass definition =
          .error (.classRedefined existing.name.display id)) ∨
      ∃ id after, before.Assignable definition.name id ∧ before.definition? id = none ∧
        (∀ other, after.classes.find? other =
          if other = id then some (.defined definition) else before.classes.find? other) ∧
        after.functions = before.functions ∧ before.defineClass definition = .ok (after, id) := by
  unfold defineClass
  rcases named.declareClass_cases definition.name with
    ⟨id, known, declared⟩ | ⟨id, nameFree, idFree, root, declared⟩
  · simp only [declared]
    cases defined : before.definition? id with
    | some existing => exact .inl ⟨id, existing, known, defined, rfl⟩
    | none =>
      exact .inr ⟨id, before.withClass id (.defined definition), .known known, defined,
        fun other => find?_withClass before id other _, rfl, rfl⟩
  · have undefined : (before.withClass id (.declared definition.name)).definition? id = none := by
      rw [definition?, find?_withClass, if_pos rfl]
      rfl
    have wasUndefined : before.definition? id = none := by
      rw [definition?, idFree]
      rfl
    simp only [declared, undefined]
    refine .inr ⟨id, (before.withClass id (.declared definition.name)).withClass id
      (.defined definition), .free nameFree idFree root, wasUndefined, fun other => ?_, rfl, rfl⟩
    rw [find?_withClass, find?_withClass]
    split <;> rfl

theorem Named.effect (named : before.Named)
    (answered : request.answer before = .ok (after, answer)) :
    Effect request before after answer := by
  cases request with
  | declare name =>
    rcases named.declareClass_cases name with
      ⟨id, known, declared⟩ | ⟨id, nameFree, idFree, root, declared⟩
    · rw [Request.answer, declared] at answered
      cases answered
      exact .known rfl known
    · rw [Request.answer, declared] at answered
      cases answered
      refine @Effect.assigned _ _ id (.declared name) _ rfl (.free nameFree idFree root) ?_ ?_ rfl
      · rw [definition?, idFree]
        rfl
      · exact fun other => find?_withClass before id other _
  | define definition =>
    obtain ⟨⟨reached, id⟩, made, built⟩ := bind_eq_ok.mp answered
    cases pure_eq_ok.mp built
    rcases named.defineClass_cases definition with
      ⟨_, _, _, _, failed⟩ | ⟨id, after, assignable, undefined, classes, functions, defined⟩
    · cases failed.symm.trans made
    · cases defined.symm.trans made
      exact @Effect.assigned _ _ id (.defined definition) _ rfl assignable undefined classes
        functions
  | insertFunction name =>
    cases answered
    exact .function rfl (find?_insertFunction before name) rfl rfl
  | registerBox box value =>
    obtain ⟨reached, made, built⟩ := bind_eq_ok.mp answered
    cases pure_eq_ok.mp built
    unfold registerBox at made
    split at made
    · split at made
      · cases made
        exact .box rfl rfl rfl
      · cases made
    · cases made
      exact .box rfl rfl rfl

/-! ## What requests keep -/

theorem Assignable.eq_of_className? (named : before.Named) (assignable : before.Assignable name id)
    {other : ClassId} (known : before.className? other = some name) : other = id := by
  cases assignable with
  | known isKnown => exact named.apart known isKnown
  | free nameFree =>
    rw [named.findClass?_eq_some.mpr known] at nameFree
    cases nameFree

theorem Assignable.name_eq_of_className? {other : QualifiedName}
    (assignable : before.Assignable name id) (known : before.className? id = some other) :
    other = name := by
  cases assignable with
  | known isKnown => exact Option.some.inj (known.symm.trans isKnown)
  | free _ idFree =>
    rw [className?, idFree] at known
    cases known

theorem Assignable.root_iff (named : before.Named) (assignable : before.Assignable name id) :
    id = ClassId.root ↔ name = rootName := by
  cases assignable with
  | known isKnown => exact named.root isKnown
  | free _ _ root => exact root

/-- The names after an entry was put under a number. -/
theorem className?_of_find? {entry : ClassEntry} (classes : ∀ other, after.classes.find? other =
      if other = id then some entry else before.classes.find? other) (other : ClassId) :
    after.className? other = if other = id then some entry.name else before.className? other := by
  rw [className?, classes]
  split <;> rfl

/-- What happens to functions and boxes does not touch the names and definitions of classes. -/
theorem className?_congr (same : after.classes = before.classes) :
    after.className? = before.className? := by
  funext other
  rw [className?, className?, same]

theorem definition?_congr (same : after.classes = before.classes) :
    after.definition? = before.definition? := by
  funext other
  rw [definition?, definition?, same]

theorem Named.congr (named : before.Named) (same : after.classes = before.classes) :
    after.Named := by
  constructor
  · rw [className?_congr same]
    exact @named.apart
  · rw [className?_congr same]
    exact @named.root

theorem named_empty : empty.Named where
  apart := by
    intro first second name known
    cases known
  root := by
    intro id name known
    cases known

theorem Effect.named (named : before.Named) (effect : Effect request before after answer) :
    after.Named := by
  cases effect with
  | known => exact named
  | function _ _ classes | box _ classes => exact named.congr classes
  | @assigned id entry _ _ assignable _ classes =>
    have names := className?_of_find? classes
    constructor
    · intro first second name firstKnown secondKnown
      rw [names] at firstKnown secondKnown
      split at firstKnown <;> split at secondKnown
      · simp_all
      · rename_i isFirst _
        cases firstKnown
        exact isFirst.trans (assignable.eq_of_className? named secondKnown).symm
      · rename_i isSecond
        cases secondKnown
        exact (assignable.eq_of_className? named firstKnown).trans isSecond.symm
      · exact named.apart firstKnown secondKnown
    · intro other name known
      rw [names] at known
      split at known
      · rename_i isOther
        cases known
        rw [isOther]
        exact assignable.root_iff named
      · exact named.root known

/-- A name is found under the number that was answered for it last. -/
theorem Effect.findClass? (named : before.Named) (effect : Effect request before after answer)
    (name : QualifiedName) : after.findClass? name =
      if request.className? = some name then answer.classId? else before.findClass? name := by
  have namedAfter := effect.named named
  cases effect with
  | known declares isKnown =>
    subst declares
    split
    · rename_i sameName
      cases sameName
      exact named.findClass?_eq_some.mpr isKnown
    · rfl
  | function asks _ classes | box asks classes =>
    rw [asks, if_neg (by simp), findClass?, classes]
    rfl
  | @assigned id entry _ gives assignable _ classes =>
    have asks := Request.className?_of_entry? gives
    have names := className?_of_find? classes
    split
    · rename_i sameName
      cases asks.symm.trans sameName
      apply namedAfter.findClass?_eq_some.mpr
      rw [names, if_pos rfl]
    · rename_i otherName
      apply Option.ext
      intro other
      rw [namedAfter.findClass?_eq_some, named.findClass?_eq_some, names]
      split
      · rename_i isOther
        subst isOther
        constructor
        · intro same
          exact absurd (asks.trans same) otherName
        · intro known
          rw [assignable.name_eq_of_className? known]
      · rfl

/-- What is defined afterwards was defined before, or the request defined it. -/
theorem Effect.definition?_eq_some_iff (effect : Effect request before after answer) :
    after.definition? id = some definition ↔ before.definition? id = some definition ∨
      request = .define definition ∧ answer = .ofClass id := by
  cases effect with
  | known declares => simp [declares]
  | function _ _ classes | box _ classes =>
    rw [definition?_congr classes]
    simp
  | @assigned place entry _ gives _ undefined classes =>
    rw [definition?, classes]
    by_cases same : id = place
    · subst same
      rw [if_pos rfl, undefined, Option.bind_some, Request.definition?_of_entry? gives]
      simp
    · rw [if_neg same]
      simp [Ne.symm same, definition?]

/-- A name that is known is answered with its number. -/
theorem Effect.answer_eq (named : before.Named) (effect : Effect request before after answer)
    (known : before.className? id = some name) (asked : request.className? = some name) :
    answer = .ofClass id := by
  cases effect with
  | known declares isKnown =>
    cases declares.symm ▸ asked
    rw [named.apart isKnown known]
  | assigned gives assignable =>
    cases (Request.className?_of_entry? gives).symm.trans asked
    rw [assignable.eq_of_className? named known]
  | function asks | box asks => cases asks.symm.trans asked

theorem Effect.contains_functions (effect : Effect request before after answer)
    (function : FunctionId) : after.functions.contains function ↔
      before.functions.contains function ∨ answer = .ofFunction function := by
  cases effect with
  | known => simp
  | assigned _ _ _ _ functions => simp [functions]
  | box _ _ functions => simp [functions]
  | @function id _ _ _ _ _ functions =>
    rw [functions, OrderedMap.contains, OrderedMap.find?_insert]
    by_cases same : function = id
    · simp [same]
    · simp [same, Ne.symm same, OrderedMap.contains]

/-- Whether a catalog can be what an earlier one has become: classes keep their names and
definitions, and functions stay. -/
structure Continues (later earlier : Catalog) : Prop where
  names : ∀ {id : ClassId} {name : QualifiedName}, earlier.className? id = some name →
    later.className? id = some name
  definitions : ∀ {id : ClassId} {definition : ClassDefinition},
    earlier.definition? id = some definition → later.definition? id = some definition
  functions : ∀ {id : FunctionId}, earlier.functions.contains id → later.functions.contains id

theorem Continues.refl (catalog : Catalog) : catalog.Continues catalog :=
  ⟨id, id, id⟩

theorem Continues.trans (later : after.Continues middle) (earlier : middle.Continues before) :
    after.Continues before :=
  ⟨fun known => later.names (earlier.names known),
    fun defined => later.definitions (earlier.definitions defined),
    fun present => later.functions (earlier.functions present)⟩

theorem Effect.continues (effect : Effect request before after answer) :
    after.Continues before where
  names := by
    intro id name known
    cases effect with
    | known => exact known
    | function _ _ classes | box _ classes =>
      rw [className?_congr classes]
      exact known
    | assigned _ assignable _ classes =>
      rw [className?_of_find? classes]
      split
      · rename_i same
        subst same
        rw [assignable.name_eq_of_className? known]
      · exact known
  definitions := fun defined => effect.definition?_eq_some_iff.mpr (.inl defined)
  functions := fun present => (effect.contains_functions _).mpr (.inl present)

/-! ## Runs -/

theorem lastAnswered?_concat (history : History) (entry : Request × Answer)
    (name : QualifiedName) : lastAnswered? (history ++ [entry]) name =
      (if entry.1.className? = some name then entry.2.classId? else none).or
        (lastAnswered? history name) := by
  simp only [lastAnswered?, List.reverse_append, List.reverse_singleton, List.singleton_append,
    List.findSome?_cons]
  split <;> simp_all

/-- What the requests so far and their answers say about the catalog they led to. -/
structure Accounted (history : History) (catalog : Catalog) : Prop where
  named : catalog.Named
  found : ∀ name, catalog.findClass? name = lastAnswered? history name
  asked : ∀ name, (catalog.findClass? name).isSome ↔
    ∃ entry ∈ history, entry.1.className? = some name
  defined : ∀ id definition, catalog.definition? id = some definition ↔
    (.define definition, .ofClass id) ∈ history
  functions : ∀ id, catalog.functions.contains id ↔ ∃ entry ∈ history, entry.2 = .ofFunction id

theorem Effect.classId?_isSome (effect : Effect request before after answer)
    (asked : request.className? = some name) : answer.classId?.isSome := by
  cases effect with
  | known | assigned => rfl
  | function asks | box asks => cases asks.symm.trans asked

theorem Accounted.step (accounted : Accounted history before)
    (answered : request.answer before = .ok (after, answer)) :
    Accounted (history ++ [(request, answer)]) after := by
  have effect := accounted.named.effect answered
  refine ⟨effect.named accounted.named, fun name => ?_, fun name => ?_, fun id definition => ?_,
    fun id => ?_⟩
  · rw [effect.findClass? accounted.named, lastAnswered?_concat, accounted.found]
    split
    · rename_i asked
      obtain ⟨id, isClass⟩ := Option.isSome_iff_exists.mp (effect.classId?_isSome asked)
      rw [isClass]
      rfl
    · rfl
  · rw [effect.findClass? accounted.named]
    simp only [List.mem_append, List.mem_singleton, or_and_right, exists_or, exists_eq_left]
    split
    · rename_i asked
      exact ⟨fun _ => .inr asked, fun _ => effect.classId?_isSome asked⟩
    · rename_i notAsked
      rw [accounted.asked]
      exact ⟨.inl, fun known => known.resolve_right notAsked⟩
  · rw [effect.definition?_eq_some_iff, accounted.defined, List.mem_append, List.mem_singleton,
      Prod.mk.injEq, eq_comm (a := request), eq_comm (a := answer)]
  · rw [effect.contains_functions, accounted.functions]
    simp only [List.mem_append, List.mem_singleton, or_and_right, exists_or, exists_eq_left]

theorem accounted_of_answerAll (ran : answerAll requests empty = .ok (catalog, history)) :
    Accounted history catalog := by
  refine answerAll_preserves ran Accounted
    ⟨named_empty, fun _ => rfl, fun _ => ?_, fun _ _ => ?_, fun _ => ?_⟩
    fun earlier answered => earlier.step answered
  · simp [empty, Catalog.findClass?, OrderedMap.empty]
  · simp [empty, Catalog.definition?, OrderedMap.find?, OrderedMap.empty]
  · simp [empty, OrderedMap.contains, OrderedMap.find?, OrderedMap.empty]

/-- What later requests leave as it is, and how they are answered. -/
structure KeepsIdentities (before : Catalog) (history : History) (after : Catalog) : Prop
    extends after.Continues before where
  answers : ∀ {id : ClassId} {name : QualifiedName}, before.className? id = some name →
    ∀ entry ∈ history, entry.1.className? = some name → entry.2 = .ofClass id

theorem keepsIdentities_of_answerAll (named : before.Named)
    (ran : answerAll requests before = .ok (after, history)) :
    KeepsIdentities before history after := by
  have kept := answerAll_preserves ran
    (fun history reached => reached.Named ∧ KeepsIdentities before history reached)
    ⟨named, .refl before, by simp⟩
    (fun {done request middle reached answer} ⟨namedMiddle, earlier⟩ answered => by
      have effect := namedMiddle.effect answered
      refine ⟨effect.named namedMiddle, effect.continues.trans earlier.toContinues, ?_⟩
      intro id name known entry member asked
      rcases List.mem_append.mp member with before | isLast
      · exact earlier.answers known entry before asked
      · cases List.mem_singleton.mp isLast
        exact effect.answer_eq namedMiddle (earlier.names known) asked)
  exact kept.2

/-- Defining a class fails exactly where its name is defined already, and mentions the number. -/
theorem Named.defineClass_eq_error_iff (named : catalog.Named) {fault : Fault} :
    catalog.defineClass definition = .error fault ↔
      ∃ id existing, catalog.definition? id = some existing ∧ existing.name = definition.name ∧
        fault = .classRedefined definition.name.display id := by
  rcases named.defineClass_cases definition with
    ⟨id, existing, known, defined, failed⟩ | ⟨id, after, assignable, undefined, _, _, ended⟩
  · have sameName : existing.name = definition.name :=
      Option.some.inj ((className?_of_definition? defined).symm.trans known)
    rw [failed, sameName, Except.error.injEq]
    constructor
    · rintro rfl
      exact ⟨id, existing, defined, sameName, rfl⟩
    · rintro ⟨other, present, otherDefined, otherName, rfl⟩
      rw [named.apart known (otherName ▸ className?_of_definition? otherDefined)]
  · constructor
    · intro failed
      cases ended.symm.trans failed
    · rintro ⟨other, existing, defined, sameName, _⟩
      have known := sameName ▸ className?_of_definition? defined
      rw [assignable.eq_of_className? named known, undefined] at defined
      cases defined

/-! ## Main result -/

/-- What is settled about the numbers of a catalog that requests led to. -/
structure StableIdentities (history : History) (catalog : Catalog) : Prop
    extends Accounted history catalog where
  root : catalog.classes.contains ClassId.root ↔
    ∃ entry ∈ history, entry.1.className? = some rootName
  redefinition : ∀ definition fault, catalog.defineClass definition = .error fault ↔
    ∃ id earlier, (.define earlier, .ofClass id) ∈ history ∧ earlier.name = definition.name ∧
      fault = .classRedefined definition.name.display id
  newFunction : ∀ name, catalog.functions.contains (catalog.insertFunction name).2 = false
  further : ∀ requests history after, answerAll requests catalog = .ok (after, history) →
    KeepsIdentities catalog history after

theorem Named.contains_root_iff (named : catalog.Named) :
    catalog.classes.contains ClassId.root ↔ (catalog.findClass? rootName).isSome := by
  rw [OrderedMap.contains, Option.isSome_iff_exists, Option.isSome_iff_exists]
  constructor
  · rintro ⟨entry, found⟩
    have known : catalog.className? ClassId.root = some entry.name :=
      className?_eq_some.mpr ⟨entry, found, rfl⟩
    rw [(named.root known).mp rfl] at known
    exact ⟨_, named.findClass?_eq_some.mpr known⟩
  · rintro ⟨id, searched⟩
    have known := named.findClass?_eq_some.mp searched
    obtain ⟨entry, found, _⟩ := className?_eq_some.mp known
    rw [(named.root known).mpr rfl] at found
    exact ⟨entry, found⟩

/-- Classes keep the numbers and the definitions they got, whatever is requested, and every answer
about a name is its number. The definitions are those that were asked for, and a second one for a
name is refused. -/
theorem stableIdentities_of_answerAll
    (ran : answerAll requests empty = .ok (catalog, history)) :
    StableIdentities history catalog := by
  have accounted := accounted_of_answerAll ran
  exact {
    toAccounted := accounted
    root := accounted.named.contains_root_iff.trans (accounted.asked rootName)
    redefinition := fun definition fault => by
      simp only [accounted.named.defineClass_eq_error_iff, accounted.defined]
    newFunction := fun name => by
      rw [OrderedMap.contains, find?_insertFunction]
      rfl
    further := fun _ _ _ continued => keepsIdentities_of_answerAll accounted.named continued }

/-- A class without members. -/
def shapeClass : ClassDefinition :=
  ⟨⟨["demo", "Shape"]⟩, .proper, .final, .topLevel, none, [], [], [], none⟩

/-- A class that is declared before the root class and defined after it, and declared again. -/
def interleavedRequests : List Request :=
  [.declare shapeClass.name, .insertFunction none,
    .define ⟨rootName, .proper, .inheritable, .topLevel, none, [], [], [], none⟩,
    .define shapeClass, .registerBox ⟨1⟩ ⟨0⟩, .insertFunction (some ⟨["main"]⟩),
    .declare shapeClass.name]

theorem interleavedRequests_stableIdentities :
    ∃ catalog history, answerAll interleavedRequests empty = .ok (catalog, history) ∧
      StableIdentities history catalog ∧ (.define shapeClass, .ofClass ⟨1⟩) ∈ history ∧
      catalog.defineClass shapeClass = .error (.classRedefined "demo.Shape" ⟨1⟩) := by
  have ran : ∃ catalog history, answerAll interleavedRequests empty = .ok (catalog, history) ∧
      history[3]? = some (.define shapeClass, .ofClass ⟨1⟩) := ⟨_, _, rfl, rfl⟩
  obtain ⟨catalog, history, ran, fourth⟩ := ran
  have stable := stableIdentities_of_answerAll ran
  have defined := List.mem_of_getElem? fourth
  refine ⟨catalog, history, ran, stable, defined, ?_⟩
  exact (stable.redefinition shapeClass _).mpr ⟨⟨1⟩, shapeClass, defined, rfl, rfl⟩

end Catalog

end TypeRecords
