import TypeRecords.Proofs.Record.Answer

/-!
Reported names.

Owns the names that the runtime reports, told from the classes around a class. Where the outermost
of them stands in a package, the two parts of the name are read off the names from the outermost
class inwards, and they restore the qualified name of a class whose name follows its nesting. The
other classes have a simple name at most. A box is asked nothing itself: it has the name of its
value class, whose own box does not matter.
-/

namespace TypeRecords

namespace Catalog

open Outcome

variable {catalog : Catalog} {sorted : List ClassId} {id : ClassId}
  {definition outermost : ClassDefinition} {chain : List ClassDefinition} {name : ReflectedName}

/-! ## The classes around a class -/

namespace Enclosure

theorem eq_singleton (enclosure : catalog.Enclosure definition chain)
    (notNested : ∀ outer, definition.scope ≠ .nested outer) : chain = [definition] := by
  cases enclosure with
  | outermost _ => rfl
  | inside nested _ _ => exact absurd nested (notNested _)

theorem exists_outermost (enclosure : catalog.Enclosure definition chain) :
    ∃ outermost, chain.getLast? = some outermost ∧ ∀ outer, outermost.scope ≠ .nested outer := by
  induction enclosure with
  | outermost notNested => exact ⟨_, rfl, notNested⟩
  | inside _ _ _ inductionHypothesis =>
    obtain ⟨outermost, last, notNested⟩ := inductionHypothesis
    exact ⟨outermost, by rw [List.getLast?_cons, last]; rfl, notNested⟩

/-- The classes around a class do not depend on what else a catalog has. -/
theorem of_classes {other : Catalog} (same : other.classes = catalog.classes)
    (enclosure : catalog.Enclosure definition chain) : other.Enclosure definition chain := by
  induction enclosure with
  | outermost notNested => exact .outermost notNested
  | inside nested defined _ inductionHypothesis =>
    refine .inside nested ?_ inductionHypothesis
    rw [definition?, same]
    exact defined

end Enclosure

/-! ## Names along the nesting -/

/-- Whether a class is named by the name of the class around it and one part more. -/
def NamedInside (inner outer : ClassDefinition) : Prop :=
  ∃ simple, inner.name = outer.name.child simple

/-- The simple names from the outermost class inwards. -/
def simpleNames (chain : List ClassDefinition) : List String :=
  chain.reverse.map fun enclosing => enclosing.name.simpleName

theorem simpleNames_cons (definition : ClassDefinition) (chain : List ClassDefinition) :
    simpleNames (definition :: chain) = simpleNames chain ++ [definition.name.simpleName] := by
  rw [simpleNames, List.reverse_cons, List.map_append]
  rfl

/-- Where names follow the nesting, a name is its package and the simple names on the way in. -/
theorem Enclosure.parts_eq (enclosure : catalog.Enclosure definition chain)
    (last : chain.getLast? = some outermost) (hasName : outermost.name.parts ≠ [])
    (follows : chain.IsChain NamedInside) :
    definition.name.parts = outermost.name.parentParts ++ simpleNames chain := by
  induction enclosure with
  | @outermost definition notNested =>
    obtain rfl : definition = outermost := by simpa using last
    rw [QualifiedName.parentParts, simpleNames, List.reverse_singleton, List.map_singleton,
      QualifiedName.simpleName, List.getLastD_eq_getLast?,
      List.getLast?_eq_getLast_of_ne_nil hasName]
    exact (List.dropLast_append_getLast hasName).symm
  | @inside definition outerDefinition outer chain nested defined around inductionHypothesis =>
    obtain ⟨further, rfl⟩ := around.exists_cons
    obtain ⟨⟨simple, named⟩, follows⟩ := List.isChain_cons_cons.mp follows
    rw [List.getLast?_cons_cons] at last
    rw [simpleNames_cons, ← List.append_assoc, ← inductionHypothesis last follows, named]
    simp [QualifiedName.child, QualifiedName.simpleName]

theorem Enclosure.display_eq (enclosure : catalog.Enclosure definition chain)
    (last : chain.getLast? = some outermost) (hasName : outermost.name.parts ≠ [])
    (follows : chain.IsChain NamedInside) :
    definition.name.display =
      if outermost.name.parentParts = [] then ".".intercalate (simpleNames chain)
      else ".".intercalate outermost.name.parentParts ++ "." ++
        ".".intercalate (simpleNames chain) := by
  have someName : simpleNames chain ≠ [] := by
    obtain ⟨further, rfl⟩ := enclosure.exists_cons
    simp [simpleNames]
  rw [QualifiedName.display, QualifiedName.join, enclosure.parts_eq last hasName follows]
  split
  · rename_i noPackage
    rw [noPackage, List.nil_append]
  · rename_i hasPackage
    exact String.intercalate_append_of_ne_nil hasPackage someName

/-! ## Reported names -/

/-- The name of a class as the classes around it decide it. -/
def nameInside (definition : ClassDefinition) (chain : List ClassDefinition)
    (outermost : ClassDefinition) : ReflectedName :=
  if definition.scope = .anonymous then ⟨none, none⟩
  else if outermost.scope = .topLevel then
    ⟨some (".".intercalate outermost.name.parentParts), some (".".intercalate (simpleNames chain))⟩
  else ⟨none, some definition.name.simpleName⟩

theorem reflectDefinition_eq (enclosure : catalog.Enclosure definition chain)
    (last : chain.getLast? = some outermost) (short : chain.length ≤ catalog.walkBound + 1) :
    catalog.reflectDefinition definition = .ok (nameInside definition chain outermost) := by
  have walked := enclosure.enclosingWithin_eq short
  have isOutermost : chain.getLastD definition = outermost := by
    rw [List.getLastD_eq_getLast?, last, Option.getD_some]
  unfold reflectDefinition nameInside
  cases isScope : definition.scope with
  | anonymous => rfl
  | functionBody =>
    obtain rfl := enclosure.eq_singleton (by simp [isScope])
    obtain rfl : definition = outermost := by simpa using last
    simp [isScope]
    rfl
  | topLevel =>
    dsimp only
    rw [walked, ok_bind, isOutermost]
    cases outermost.scope <;> rfl
  | nested outer =>
    dsimp only
    rw [walked, ok_bind, isOutermost]
    cases outermost.scope <;> rfl

theorem reflectedName_eq
    (defined : catalog.definition? ((catalog.boxedClass? id).getD id) = some definition)
    (enclosure : catalog.Enclosure definition chain) (last : chain.getLast? = some outermost)
    (short : chain.length ≤ catalog.walkBound + 1) :
    catalog.reflectedName id = .ok (nameInside definition chain outermost) := by
  rw [reflectedName, definition_eq_ok.mpr defined, ok_bind]
  exact reflectDefinition_eq enclosure last short

/-- What the name reported for a class says, with the classes around it. -/
structure ReportedName (definition : ClassDefinition) (chain : List ClassDefinition)
    (outermost : ClassDefinition) (name : ReflectedName) : Prop where
  anonymous : definition.scope = .anonymous → name = ⟨none, none⟩
  unpackaged : definition.scope ≠ .anonymous → outermost.scope ≠ .topLevel →
    name = ⟨none, some definition.name.simpleName⟩
  packaged : outermost.scope = .topLevel →
    name = ⟨some (".".intercalate outermost.name.parentParts),
      some (".".intercalate (simpleNames chain))⟩
  /-- A name that follows the nesting is restored from the two parts. -/
  restored : outermost.name.parts ≠ [] → chain.IsChain NamedInside →
    ∀ package relative, name = ⟨some package, some relative⟩ →
      definition.name.display =
        if outermost.name.parentParts = [] then relative else package ++ "." ++ relative

theorem reportedName_nameInside (enclosure : catalog.Enclosure definition chain)
    (last : chain.getLast? = some outermost) :
    ReportedName definition chain outermost (nameInside definition chain outermost) := by
  -- An anonymous class is the outermost one itself.
  have notBoth : outermost.scope = .topLevel → definition.scope ≠ .anonymous := by
    intro isPackaged isAnonymous
    obtain rfl := enclosure.eq_singleton (by simp [isAnonymous])
    obtain rfl : definition = outermost := by simpa using last
    rw [isPackaged] at isAnonymous
    cases isAnonymous
  refine ⟨fun isAnonymous => ?_, fun notAnonymous notPackaged => ?_, fun isPackaged => ?_, ?_⟩
  · rw [nameInside, if_pos isAnonymous]
  · rw [nameInside, if_neg notAnonymous, if_neg notPackaged]
  · rw [nameInside, if_neg (notBoth isPackaged), if_pos isPackaged]
  · intro hasName follows package relative isName
    rw [nameInside] at isName
    split_ifs at isName
    · cases isName
    · cases isName
      exact enclosure.display_eq last hasName follows
    · cases isName

/-! ## Main result -/

/-- In an accepted graph, the name reported for a class is told by the classes around it or, for a
box, by those around its value class, whether or not that one is a box as well. -/
theorem reportedName_of_sortClasses {catalog : Catalog} {sorted : List ClassId}
    (accepted : catalog.sortClasses = .ok sorted) {id named : ClassId}
    (isDefined : catalog.IsDefined id) (isNamed : (catalog.boxedClass? id).getD id = named) :
    ∃ definition chain outermost name, catalog.definition? named = some definition ∧
      catalog.Enclosure definition chain ∧ chain.getLast? = some outermost ∧
      (∀ outer, outermost.scope ≠ .nested outer) ∧
      catalog.reflectedName id = .ok name ∧ ReportedName definition chain outermost name ∧
      ∀ other : Catalog, other.classes = catalog.classes → other.boxedClass? named = none →
        other.reflectedName named = .ok name := by
  have graph := soundGraph_of_sortClasses accepted
  obtain ⟨definition, defined⟩ := graph.isDefined_named isDefined
  obtain ⟨chain, enclosure, few⟩ := graph.exists_enclosure defined
  obtain ⟨outermost, last, notNested⟩ := enclosure.exists_outermost
  have usual := length_definitions_lt_walkBound catalog
  have short : chain.length ≤ catalog.walkBound + 1 := by omega
  refine ⟨definition, chain, outermost, _, isNamed ▸ defined, enclosure, last, notNested,
    reflectedName_eq defined enclosure last short, reportedName_nameInside enclosure last, ?_⟩
  intro other same isNoBox
  refine reflectedName_eq ?_ (enclosure.of_classes same) last ?_
  · rw [isNoBox, Option.getD_none, definition?, same, ← isNamed]
    exact defined
  · rw [walkBound, same]
    exact short

/-- A class without members, right below the root. -/
def classInScope (parts : List String) (scope : ClassScope) : ClassEntry :=
  .defined ⟨⟨parts⟩, .proper, .inheritable, scope, none, [], [], [], none⟩

/-- Two nested classes, of which the inner one is the value class of a box and a box itself. -/
def nestedNames : Catalog where
  classes := .ofList [
    (ClassId.root, classInScope ["system", "Any"] .topLevel),
    (⟨3⟩, classInScope ["demo", "geometry", "Circle", "Arc", "Tip"] (.nested ⟨2⟩)),
    (⟨2⟩, classInScope ["demo", "geometry", "Circle", "Arc"] (.nested ⟨1⟩)),
    (⟨1⟩, classInScope ["demo", "geometry", "Circle"] .topLevel),
    (⟨4⟩, classInScope ["demo", "TipBox"] .anonymous)]
  functions := .empty
  valueBoxes := .ofList [(⟨4⟩, ⟨3⟩), (⟨3⟩, ⟨1⟩)]

theorem nestedNames_sortClasses :
    nestedNames.sortClasses = .ok [ClassId.root, ⟨1⟩, ⟨2⟩, ⟨3⟩, ⟨4⟩] := by
  cbv

theorem nestedNames_reportedName :
    nestedNames.reflectedName ⟨4⟩ = .ok ⟨some "demo.geometry", some "Circle.Arc.Tip"⟩ ∧
      ∃ definition chain outermost, nestedNames.definition? ⟨3⟩ = some definition ∧
        nestedNames.Enclosure definition chain ∧ chain.getLast? = some outermost ∧
        ReportedName definition chain outermost
          ⟨some "demo.geometry", some "Circle.Arc.Tip"⟩ := by
  have reported : nestedNames.reflectedName ⟨4⟩ =
      .ok ⟨some "demo.geometry", some "Circle.Arc.Tip"⟩ := by cbv
  have isDefined : nestedNames.IsDefined ⟨4⟩ := ⟨_, rfl⟩
  have isNamed : (nestedNames.boxedClass? ⟨4⟩).getD ⟨4⟩ = ⟨3⟩ := rfl
  obtain ⟨definition, chain, outermost, name, defined, enclosure, last, _, answered, isReported,
    _⟩ := reportedName_of_sortClasses nestedNames_sortClasses isDefined isNamed
  obtain rfl := Except.ok.inj (reported.symm.trans answered)
  exact ⟨reported, definition, chain, outermost, defined, enclosure, last, isReported⟩

end Catalog

end TypeRecords
