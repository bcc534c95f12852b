import TypeRecords.Proofs.Class.Walk

/-!
The defects that class graphs are refused for.

Owns the meaning of every error of `Catalog.sortClasses`, told by the relations between classes
alone. Each check of the graph is followed to its refusals, and what it says of the graph is there.
Two refusals are about more than a reference: a walk outwards that meets a class again has come
along a circle, and what the schedule leaves over stands behind one.
-/

namespace TypeRecords

namespace Catalog

open Outcome

variable {catalog : Catalog} {error : GraphError} {id : ClassId} {definition : ClassDefinition}

/-! ## Defects -/

/-- Whether the defect that an error reports is there. A class that is reported by its name is a
defined one of that name, since names need not be distinct in a graph with defects. -/
inductive HasDefect (catalog : Catalog) : GraphError → Prop
  | rootMissing (undefined : catalog.definition? ClassId.root = none) :
      HasDefect catalog .missingRoot
  | rootUnfit {root : ClassDefinition} (defined : catalog.definition? ClassId.root = some root)
      (unfit : root.isInterface = true ∨ ∃ supertype, root.superclass = some supertype) :
      HasDefect catalog (.rootHasSupertype root.name)
  | nameTwice {name : QualifiedName} {first second : ClassId}
      {firstDefinition secondDefinition : ClassDefinition}
      (firstDefined : catalog.definition? first = some firstDefinition)
      (secondDefined : catalog.definition? second = some secondDefinition)
      (firstName : firstDefinition.name = name) (secondName : secondDefinition.name = name)
      (different : first ≠ second) (inOrder : [first, second].Sublist catalog.classes.keys) :
      HasDefect catalog (.duplicateName name first second)
  | predecessorUndefined {id missing : ClassId} {definition : ClassDefinition}
      (defined : catalog.definition? id = some definition)
      (related : catalog.Precedes missing id) (undefined : catalog.definition? missing = none) :
      HasDefect catalog (.unresolved definition.name (catalog.describeClass missing))
  | encloserUndefined {id missing : ClassId} {definition : ClassDefinition}
      (defined : catalog.definition? id = some definition)
      (path : Relation.TransGen catalog.NestedIn id missing)
      (undefined : catalog.definition? missing = none) :
      HasDefect catalog (.unresolved definition.name (catalog.describeClass missing))
  /-- A box that is not defined has no name of its own, so the value class is named. -/
  | boxUndefined {box value : ClassId} (boxed : catalog.boxedClass? box = some value)
      (undefined : catalog.definition? box = none) :
      HasDefect catalog
        (.unresolved (QualifiedName.parse (catalog.describeClass value))
          (catalog.describeClass box))
  | valueUndefined {box value : ClassId} {definition : ClassDefinition}
      (boxed : catalog.boxedClass? box = some value)
      (defined : catalog.definition? box = some definition)
      (undefined : catalog.definition? value = none) :
      HasDefect catalog (.unresolved definition.name (catalog.describeClass value))
  | properListed {id listed : ClassId} {definition listedDefinition : ClassDefinition}
      (defined : catalog.definition? id = some definition)
      (listedDefined : catalog.definition? listed = some listedDefinition)
      (member : listed ∈ definition.interfaces) (proper : listedDefinition.isInterface = false) :
      HasDefect catalog (.notAnInterface definition.name listedDefinition.name)
  | interfaceAbove {id supertype : ClassId} {definition super : ClassDefinition}
      (defined : catalog.definition? id = some definition)
      (superDefined : catalog.definition? supertype = some super)
      (above : definition.supertype? id = some supertype) (isInterface : super.isInterface = true) :
      HasDefect catalog (.supertypeIsInterface definition.name super.name)
  | interfaceExtends {id supertype : ClassId} {definition super : ClassDefinition}
      (defined : catalog.definition? id = some definition)
      (superDefined : catalog.definition? supertype = some super)
      (named : definition.superclass = some supertype)
      (isInterface : definition.isInterface = true) :
      HasDefect catalog (.interfaceHasSupertype definition.name super.name)
  /-- The class itself need not be on the circle. -/
  | circleAbove {id other : ClassId} {definition : ClassDefinition}
      (defined : catalog.definition? id = some definition)
      (reached : Relation.ReflTransGen catalog.Precedes other id)
      (circle : Relation.TransGen catalog.Precedes other other) :
      HasDefect catalog (.circular definition.name)
  | circleAround {id other : ClassId} {definition : ClassDefinition}
      (defined : catalog.definition? id = some definition)
      (reached : Relation.ReflTransGen catalog.NestedIn id other)
      (circle : Relation.TransGen catalog.NestedIn other other) :
      HasDefect catalog (.circular definition.name)

/-! ## Supertypes and interfaces -/

theorem resolve_eq_error {name : QualifiedName} {reference : ClassId} :
    catalog.resolve name reference = .error error ↔
      catalog.definition? reference = none ∧
        .unresolved name (catalog.describeClass reference) = error := by
  rw [resolve]
  cases catalog.definition? reference <;> simp

/-- What has to come before a class can only be unresolved because it is not defined. -/
theorem hasDefect_of_resolve {reference : ClassId}
    (defined : catalog.definition? id = some definition)
    (related : catalog.Precedes reference id)
    (refused : catalog.resolve definition.name reference = .error error) :
    catalog.HasDefect error := by
  obtain ⟨undefined, rfl⟩ := resolve_eq_error.mp refused
  exact .predecessorUndefined defined related undefined

/-- The second half of the check of a supertype, which is about the root as well. -/
theorem hasDefect_of_supertype {supertype : ClassId}
    (defined : catalog.definition? id = some definition)
    (above : definition.supertype? id = some supertype)
    (refused : (do
      let superDefinition ← catalog.resolve definition.name supertype
      if superDefinition.isInterface then
        throw (.supertypeIsInterface definition.name superDefinition.name)
      return [supertype] : Except GraphError (List ClassId)) = .error error) :
    catalog.HasDefect error := by
  rcases bind_eq_error.mp refused with unresolved | ⟨super, found, refused⟩
  · exact hasDefect_of_resolve defined ⟨definition, defined, .inl above⟩ unresolved
  · rcases guard_eq_error.mp refused with ⟨isInterface, rfl⟩ | ⟨_, returned⟩
    · exact .interfaceAbove defined (resolve_eq_ok.mp found) above isInterface
    · cases returned

theorem hasDefect_of_checkSupertype (rootChecked : catalog.checkRoot = .ok ())
    (defined : catalog.definition? id = some definition)
    (refused : catalog.checkSupertype id definition = .error error) :
    catalog.HasDefect error := by
  unfold checkSupertype at refused
  cases named : definition.superclass with
  | none =>
    rw [named] at refused
    cases above : definition.supertype? id with
    | none =>
      rw [above] at refused
      cases refused
    | some supertype =>
      rw [above] at refused
      exact hasDefect_of_supertype defined above refused
  | some supertype =>
    have above := supertype?_of_superclass rootChecked defined named
    rw [named, above] at refused
    rcases bind_eq_error.mp refused with unresolved | ⟨super, found, refused⟩
    · exact hasDefect_of_resolve defined ⟨definition, defined, .inl above⟩ unresolved
    · rcases guard_eq_error.mp refused with ⟨isInterface, rfl⟩ | ⟨_, refused⟩
      · exact .interfaceExtends defined (resolve_eq_ok.mp found) named isInterface
      · exact hasDefect_of_supertype defined above refused

theorem hasDefect_of_checkInterfaces (defined : catalog.definition? id = some definition)
    (refused : catalog.checkInterfaces definition = .error error) : catalog.HasDefect error := by
  obtain ⟨interface, member, refused⟩ := exists_item_of_forM_eq_error refused
  rcases bind_eq_error.mp refused with unresolved | ⟨listed, found, refused⟩
  · exact hasDefect_of_resolve defined ⟨definition, defined, .inr member⟩ unresolved
  · cases kind : listed.isInterface with
    | true =>
      rw [kind] at refused
      cases refused
    | false =>
      rw [kind] at refused
      cases refused
      exact .properListed defined (resolve_eq_ok.mp found) member kind

/-! ## Enclosing classes -/

/-- What is known on a walk outwards that has come to a class: the visited classes are distinct and
defined, and each lies on the way from the start to where the walk is. -/
structure WalkedOutwards (catalog : Catalog) (start current : ClassId) (visited : List ClassId) :
    Prop where
  distinct : visited.Nodup
  defined : ∀ id ∈ visited, catalog.IsDefined id
  here : current ∈ visited
  fromStart : ∀ id ∈ visited, Relation.ReflTransGen catalog.NestedIn start id
  toCurrent : ∀ id ∈ visited, Relation.ReflTransGen catalog.NestedIn id current

namespace WalkedOutwards

variable {origin current outer : ClassId} {visited : List ClassId}

theorem start (isDefined : catalog.IsDefined id) : catalog.WalkedOutwards id id [id] := by
  refine ⟨List.nodup_singleton id, ?_, by simp, ?_, ?_⟩ <;> rintro other (_ | ⟨_, ⟨⟩⟩)
  · exact isDefined
  · exact .refl
  · exact .refl

theorem step (walk : catalog.WalkedOutwards origin current visited)
    (related : catalog.NestedIn current outer) (isDefined : catalog.IsDefined outer)
    (fresh : outer ∉ visited) : catalog.WalkedOutwards origin outer (outer :: visited) where
  distinct := List.nodup_cons.mpr ⟨fresh, walk.distinct⟩
  defined := List.forall_mem_cons.mpr ⟨isDefined, walk.defined⟩
  here := List.mem_cons_self
  fromStart :=
    List.forall_mem_cons.mpr ⟨(walk.fromStart current walk.here).tail related, walk.fromStart⟩
  toCurrent :=
    List.forall_mem_cons.mpr ⟨.refl, fun id member => (walk.toCurrent id member).tail related⟩

theorem length_le (walk : catalog.WalkedOutwards origin current visited) :
    visited.length ≤ catalog.classes.size :=
  (length_le_of_nodup walk.distinct walk.defined).trans (length_definitions_le catalog)

/-- A class that is met again reaches itself. -/
theorem transGen_self (walk : catalog.WalkedOutwards origin current visited)
    (related : catalog.NestedIn current outer) (again : outer ∈ visited) :
    Relation.TransGen catalog.NestedIn outer outer :=
  .tail' (walk.toCurrent outer again) related

end WalkedOutwards

/-- The walk is refused for a circle or for a class that is not defined. The bound does not end it,
because it allows for one class more than there are. -/
theorem hasDefect_of_checkEnclosing {start current : ClassId} {bound : Nat}
    {visited : List ClassId} {currentDefinition : ClassDefinition}
    (defined : catalog.definition? start = some definition)
    (walk : catalog.WalkedOutwards start current visited)
    (currentDefined : catalog.definition? current = some currentDefinition)
    (enough : catalog.classes.size < bound + visited.length)
    (refused : catalog.checkEnclosing definition.name bound visited currentDefinition.scope =
      .error error) : catalog.HasDefect error := by
  generalize scope : currentDefinition.scope = currentScope at refused
  fun_induction checkEnclosing catalog definition.name bound visited currentScope
    generalizing current currentDefinition with
  | case1 bound visited outer again =>
    have related : catalog.NestedIn current outer := ⟨_, currentDefined, scope⟩
    cases refused
    exact .circleAround defined (walk.fromStart outer again) (walk.transGen_self related again)
  | case2 visited outer fresh =>
    have short := walk.length_le
    omega
  | case3 visited outer fresh bound inductionHypothesis =>
    have related : catalog.NestedIn current outer := ⟨_, currentDefined, scope⟩
    rcases bind_eq_error.mp refused with unresolved | ⟨outerDefinition, found, refused⟩
    · obtain ⟨undefined, rfl⟩ := resolve_eq_error.mp unresolved
      exact .encloserUndefined defined (.tail' (walk.fromStart current walk.here) related) undefined
    · have outerDefined := resolve_eq_ok.mp found
      refine inductionHypothesis outerDefinition (walk.step related ⟨_, outerDefined⟩ fresh)
        outerDefined ?_ rfl refused
      rw [List.length_cons]
      omega
  | case4 bound visited scope notNested => cases refused

/-! ## All classes -/

theorem hasDefect_of_checkReferences (rootChecked : catalog.checkRoot = .ok ())
    (defined : catalog.definition? id = some definition)
    (refused : catalog.checkReferences id definition = .error error) :
    catalog.HasDefect error := by
  rcases bind_eq_error.mp refused with supertype | ⟨_, _, refused⟩
  · exact hasDefect_of_checkSupertype rootChecked defined supertype
  rcases bind_eq_error.mp refused with interfaces | ⟨_, _, refused⟩
  · exact hasDefect_of_checkInterfaces defined interfaces
  rcases bind_eq_error.mp refused with enclosing | ⟨_, _, returned⟩
  · exact hasDefect_of_checkEnclosing defined (.start ⟨_, defined⟩) defined (by simp) enclosing
  · cases returned

/-- A class whose name an earlier one has. -/
theorem hasDefect_of_sameName {earlier rest : List (ClassId × ClassDefinition)}
    {first : ClassId × ClassDefinition}
    (split : earlier ++ (id, definition) :: rest = catalog.definitions) (member : first ∈ earlier)
    (sameName : first.2.name = definition.name) :
    catalog.HasDefect (.duplicateName definition.name first.1 id) := by
  have pair : [first, (id, definition)].Sublist catalog.definitions := by
    rw [← split]
    exact (List.singleton_sublist.mpr member).append (List.singleton_sublist.mpr (by simp))
  have inOrder : [first.1, id].Sublist catalog.classes.keys :=
    (pair.map Prod.fst).trans (definitions_ids_sublist catalog)
  have different : first.1 ≠ id := by simpa using inOrder.nodup catalog.classes.keysDistinct
  exact .nameTwice (mem_definitions.mp (pair.subset (by simp)))
    (mem_definitions.mp (pair.subset (by simp))) sameName rfl different inOrder

theorem hasDefect_of_checkClasses (rootChecked : catalog.checkRoot = .ok ())
    {earlier rest : List (ClassId × ClassDefinition)}
    (split : earlier ++ rest = catalog.definitions)
    (refused : catalog.checkClasses earlier rest = .error error) : catalog.HasDefect error := by
  induction rest generalizing earlier with
  | nil => cases refused
  | cons entry rest inductionHypothesis =>
    obtain ⟨id, definition⟩ := entry
    unfold checkClasses at refused
    cases clash : earlier.find? fun other => other.2.name = definition.name with
    | some first =>
      rw [clash] at refused
      cases refused
      exact hasDefect_of_sameName split (List.mem_of_find?_eq_some clash)
        (by simpa using List.find?_some clash)
    | none =>
      rw [clash] at refused
      have defined : catalog.definition? id = some definition := by
        rw [← mem_definitions, ← split]
        simp
      rcases bind_eq_error.mp refused with references | ⟨_, _, refused⟩
      · exact hasDefect_of_checkReferences rootChecked defined references
      rcases bind_eq_error.mp refused with later | ⟨_, _, returned⟩
      · exact inductionHypothesis (by simpa using split) later
      · cases returned

theorem hasDefect_of_checkRoot (refused : catalog.checkRoot = .error error) :
    catalog.HasDefect error := by
  unfold checkRoot at refused
  cases defined : catalog.definition? ClassId.root with
  | none =>
    rw [defined] at refused
    cases refused
    exact .rootMissing defined
  | some root =>
    rw [defined] at refused
    by_cases unfit : root.superclass.isSome || root.isInterface
    · simp only [unfit, if_true] at refused
      cases refused
      refine .rootUnfit defined ?_
      rcases Bool.or_eq_true_iff.mp unfit with extended | isInterface
      · exact .inr (Option.isSome_iff_exists.mp extended)
      · exact .inl isInterface
    · simp [unfit] at refused

theorem hasDefect_of_checkBoxes (refused : catalog.checkBoxes = .error error) :
    catalog.HasDefect error := by
  obtain ⟨⟨box, value⟩, member, refused⟩ := exists_item_of_forM_eq_error refused
  have boxed : catalog.boxedClass? box = some value := OrderedMap.find?_eq_some_iff.mpr member
  cases defined : catalog.definition? box with
  | none =>
    simp only [defined] at refused
    cases refused
    exact .boxUndefined boxed defined
  | some definition =>
    simp only [defined] at refused
    rcases bind_eq_error.mp refused with unresolved | ⟨_, _, returned⟩
    · obtain ⟨undefined, rfl⟩ := resolve_eq_error.mp unresolved
      exact .valueUndefined boxed defined undefined
    · cases returned

/-- A defined class that gets no place in the order stands behind a circle. -/
theorem hasDefect_of_not_mem_schedule (defined : catalog.definition? id = some definition)
    (notSorted : id ∉ (Task.schedule ClassId.atMost catalog.orderTasks).1) :
    catalog.HasDefect (.circular definition.name) := by
  have given := mem_items_orderTasks.mpr ⟨definition, defined⟩
  have scheduled := (Task.schedule_perm ClassId.atMost catalog.orderTasks).mem_iff.mpr given
  have left := (List.mem_append.mp scheduled).resolve_left notSorted
  obtain ⟨other, reached, circle⟩ := exists_circle_of_mem_stuck left
  exact .circleAbove defined reached circle

/-- An error that sorting answers names a defect that is there. -/
theorem hasDefect_of_sortClasses (refused : catalog.sortClasses = .error error) :
    catalog.HasDefect error := by
  rcases bind_eq_error.mp refused with root | ⟨_, rootChecked, refused⟩
  · exact hasDefect_of_checkRoot root
  rcases bind_eq_error.mp refused with classes | ⟨tasks, checked, refused⟩
  · exact hasDefect_of_checkClasses rootChecked rfl classes
  rcases bind_eq_error.mp refused with boxes | ⟨_, _, refused⟩
  · exact hasDefect_of_checkBoxes boxes
  obtain ⟨_, _, _, rfl⟩ := checkClasses_eq_ok.mp checked
  simp only at refused
  split at refused
  · rename_i missing
    cases refused
    have notSorted := List.find?_some missing
    rw [decide_eq_true_eq] at notSorted
    exact hasDefect_of_not_mem_schedule (mem_definitions.mp (List.mem_of_find?_eq_some missing))
      notSorted
  · cases refused

/-! ## Sound graphs -/

/-- A sound graph has none of the defects. -/
theorem SoundGraph.not_hasDefect (graph : catalog.SoundGraph) (error : GraphError) :
    ¬ catalog.HasDefect error := by
  have clash : ∀ {id}, catalog.definition? id = none → ¬ catalog.IsDefined id := by
    rintro id undefined ⟨definition, defined⟩
    rw [undefined] at defined
    cases defined
  intro defect
  cases defect with
  | rootMissing undefined =>
    obtain ⟨root, defined, _⟩ := graph.root
    exact clash undefined ⟨root, defined⟩
  | rootUnfit defined unfit =>
    obtain ⟨root, found, proper, free⟩ := graph.root
    rw [defined] at found
    cases found
    rcases unfit with isInterface | ⟨supertype, named⟩
    · simp [proper] at isInterface
    · simp [free] at named
  | nameTwice firstDefined secondDefined firstName secondName different inOrder =>
    exact different
      (graph.namesDistinct firstDefined secondDefined (firstName.trans secondName.symm))
  | predecessorUndefined defined related undefined =>
    exact clash undefined (graph.isDefined_of_precedes related)
  | encloserUndefined defined path undefined =>
    cases path with
    | single related => exact clash undefined (graph.isDefined_of_nestedIn related)
    | tail _ related => exact clash undefined (graph.isDefined_of_nestedIn related)
  | boxUndefined boxed undefined => exact clash undefined (graph.boxes boxed).1
  | valueUndefined boxed defined undefined => exact clash undefined (graph.boxes boxed).2
  | properListed defined listedDefined member proper =>
    obtain ⟨listed, found, isInterface⟩ := graph.interfaces defined member
    rw [listedDefined] at found
    cases found
    simp [proper] at isInterface
  | interfaceAbove defined superDefined above isInterface =>
    obtain ⟨super, found, proper⟩ := (graph.soundReferences defined).above _ above
    rw [superDefined] at found
    cases found
    simp [isInterface] at proper
  | interfaceExtends defined superDefined named isInterface =>
    have proper := (graph.supertypes defined named).1
    simp [isInterface] at proper
  | circleAbove defined reached circle => exact graph.acyclic _ circle
  | circleAround defined reached circle => exact graph.nestedIn_acyclic _ circle

theorem exists_error_of_hasDefect (defect : catalog.HasDefect error) :
    ∃ refusal, catalog.sortClasses = .error refusal := by
  cases answer : catalog.sortClasses with
  | error refusal => exact ⟨refusal, rfl⟩
  | ok sorted => exact absurd defect ((soundGraph_of_sortClasses answer).not_hasDefect error)

/-! ## Main result -/

/-- A class graph is refused only for a defect that the error names and that is there, and it is
refused if it has any. -/
theorem sortClasses_refuses_for_defect (catalog : Catalog) :
    (∀ error, catalog.sortClasses = .error error → catalog.HasDefect error) ∧
      ((∃ error, catalog.HasDefect error) → ∃ error, catalog.sortClasses = .error error) :=
  ⟨fun _ => hasDefect_of_sortClasses, fun ⟨_, defect⟩ => exists_error_of_hasDefect defect⟩

/-- Two interfaces that list each other, and in front of them in the map a class that lists one of
them. No check of a single class sees the circle, and the class that is reported is not on it. -/
def listedCircle : Catalog where
  classes := .ofList [
    (ClassId.root, bareClass rootName.parts none none),
    (⟨3⟩, .defined {
      name := ⟨["demo", "Wheel"]⟩
      kind := .proper
      modality := .inheritable
      scope := .topLevel
      superclass := none
      interfaces := [⟨4⟩]
      fields := []
      methods := []
      exportSymbol := none }),
    (⟨4⟩, .defined {
      name := ⟨["demo", "Left"]⟩
      kind := .interface
      modality := .abstract
      scope := .topLevel
      superclass := none
      interfaces := [⟨5⟩]
      fields := []
      methods := []
      exportSymbol := none }),
    (⟨5⟩, .defined {
      name := ⟨["demo", "Right"]⟩
      kind := .interface
      modality := .abstract
      scope := .topLevel
      superclass := none
      interfaces := [⟨4⟩]
      fields := []
      methods := []
      exportSymbol := none })]
  functions := .empty
  valueBoxes := .empty

theorem listedCircle_hasDefect :
    listedCircle.sortClasses = .error (.circular ⟨["demo", "Wheel"]⟩) ∧
      listedCircle.HasDefect (.circular ⟨["demo", "Wheel"]⟩) := by
  have refused : listedCircle.sortClasses = .error (.circular ⟨["demo", "Wheel"]⟩) := by cbv
  exact ⟨refused, (sortClasses_refuses_for_defect listedCircle).1 _ refused⟩

end Catalog

end TypeRecords
