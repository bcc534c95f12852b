import TypeRecords.Proofs.Class.Walk
import TypeRecords.Proofs.FirstOccurrence

/-!
The virtual slots of a class in closed form.

Owns the list of all declarations a class inherits, and what the slots are in terms of it: their
names are the first occurrences of names declared overridable, and each is implemented by the last
declaration of its name. Both are proved by adding one declaration at the end, because that is how
a subclass changes the slots of its supertype. Compiled code finds a slot by its place, so the
places of inherited slots are part of the statement.
-/

namespace TypeRecords

/-- A method as a class declares it, with its place. -/
structure Declaration where
  method : MethodDefinition
  place : MethodRef

namespace Declaration

def name (declaration : Declaration) : String := declaration.method.name

/-- The member a declaration makes of its class. -/
def entry (declaration : Declaration) : DispatchEntry := ⟨declaration.name, declaration.place⟩

end Declaration

/-! ## Slots of a list of declarations -/

section Slots

open FirstOccurrence

/-- The slots after a declaration has taken part in them. -/
def takeSlot (slots : List DispatchEntry) (declaration : Declaration) : List DispatchEntry :=
  Catalog.overrideSlot declaration.place.owner slots (declaration.method, declaration.place.index)

/-- The slots that a list of declarations makes, one declaration after the other. -/
def slotsOf (declarations : List Declaration) : List DispatchEntry :=
  declarations.foldl takeSlot []

/-- The last declaration of a name. -/
def lastDeclaration? (declarations : List Declaration) (name : String) : Option Declaration :=
  declarations.reverse.find? fun declaration => declaration.name = name

theorem takeSlot_eq (slots : List DispatchEntry) (declaration : Declaration) :
    takeSlot slots declaration =
      if declaration.name ∈ slots.map DispatchEntry.name then
        slots.map fun slot => if slot.name = declaration.name then declaration.entry else slot
      else if declaration.method.overridable then slots ++ [declaration.entry] else slots := by
  have sameTest : (slots.any fun slot => slot.name = declaration.method.name) = true ↔
      declaration.name ∈ slots.map DispatchEntry.name := by
    simp [Declaration.name]
  simp only [takeSlot, Catalog.overrideSlot, sameTest]
  rfl

theorem slotsOf_concat (declarations : List Declaration) (last : Declaration) :
    slotsOf (declarations ++ [last]) = takeSlot (slotsOf declarations) last := by
  simp [slotsOf]

/-- A declaration keeps the names of the slots there are, and adds its own if that is new and may
be overridden. -/
theorem names_takeSlot (slots : List DispatchEntry) (declaration : Declaration) :
    (takeSlot slots declaration).map DispatchEntry.name =
      if declaration.name ∈ slots.map DispatchEntry.name then slots.map DispatchEntry.name
      else if declaration.method.overridable then
        slots.map DispatchEntry.name ++ [declaration.name]
      else slots.map DispatchEntry.name := by
  have kept : ∀ slot : DispatchEntry,
      (if slot.name = declaration.name then declaration.entry else slot).name = slot.name := by
    intro slot
    by_cases same : slot.name = declaration.name <;> simp [same, Declaration.entry]
  rw [takeSlot_eq]
  split_ifs
  · simp only [List.map_map, Function.comp_def, kept]
  · rw [List.map_append, List.map_singleton, Declaration.entry]
  · rfl

/-- Every slot is the declaration's own or was there before under another name. -/
theorem mem_takeSlot {slots : List DispatchEntry} {declaration : Declaration} {slot : DispatchEntry}
    (member : slot ∈ takeSlot slots declaration) :
    slot = declaration.entry ∨ slot ∈ slots ∧ slot.name ≠ declaration.name := by
  have named : ∀ other ∈ slots, other.name ∈ slots.map DispatchEntry.name :=
    fun other => List.mem_map_of_mem
  rw [takeSlot_eq] at member
  by_cases known : declaration.name ∈ slots.map DispatchEntry.name
  · rw [if_pos known] at member
    obtain ⟨old, oldMember, changed⟩ := List.mem_map.mp member
    by_cases same : old.name = declaration.name
    · exact .inl (by simpa [same] using changed.symm)
    · rw [if_neg same] at changed
      exact .inr (changed ▸ ⟨oldMember, same⟩)
  · have isOld : slot ∈ slots → slot ∈ slots ∧ slot.name ≠ declaration.name :=
      fun old => ⟨old, fun same => known (same ▸ named slot old)⟩
    rw [if_neg known] at member
    by_cases overridable : declaration.method.overridable
    · rw [if_pos overridable, List.mem_append, List.mem_singleton] at member
      exact member.symm.imp_right isOld
    · rw [if_neg overridable] at member
      exact .inr (isOld member)

/-- A slot stays where it is, and as it is, when a declaration of another name takes part. -/
theorem getElem?_takeSlot {slots : List DispatchEntry} {declaration : Declaration}
    {slot : DispatchEntry} {position : Nat} (found : slots[position]? = some slot)
    (differs : declaration.name ≠ slot.name) :
    (takeSlot slots declaration)[position]? = some slot := by
  rw [takeSlot_eq]
  split_ifs
  · simp [found, differs.symm]
  · exact List.getElem?_append_left (List.getElem?_eq_some_iff.mp found).1 ▸ found
  · exact found

theorem getElem?_foldl_takeSlot {declarations : List Declaration} {slots : List DispatchEntry}
    {slot : DispatchEntry} {position : Nat} (found : slots[position]? = some slot)
    (differ : ∀ declaration ∈ declarations, declaration.name ≠ slot.name) :
    (declarations.foldl takeSlot slots)[position]? = some slot := by
  induction declarations generalizing slots with
  | nil => exact found
  | cons declaration rest inductionHypothesis =>
    rw [List.forall_mem_cons] at differ
    exact inductionHypothesis (getElem?_takeSlot found differ.1) differ.2

/-- There is a slot for every name declared overridable, in order of the first such declaration. -/
theorem names_slotsOf (declarations : List Declaration) :
    (slotsOf declarations).map DispatchEntry.name =
      ((declarations.filter fun declaration => declaration.method.overridable).map
        Declaration.name).eraseDups := by
  induction declarations using List.reverseRecOn with
  | nil => rfl
  | append_singleton declarations last inductionHypothesis =>
    rw [slotsOf_concat, names_takeSlot, inductionHypothesis, List.filter_append]
    by_cases overridable : last.method.overridable
    · rw [List.filter_cons_of_pos (by simpa using overridable), List.filter_nil, List.map_append,
        List.map_singleton, eraseDups_concat, if_pos overridable]
      simp only [List.mem_eraseDups]
    · simp [overridable]

theorem lastDeclaration?_concat (declarations : List Declaration) (last : Declaration)
    (name : String) :
    lastDeclaration? (declarations ++ [last]) name =
      if last.name = name then some last else lastDeclaration? declarations name := by
  by_cases same : last.name = name <;> simp [lastDeclaration?, same]

/-- A slot is implemented by the last declaration of its name, overridable or not. -/
theorem implementation_of_mem_slotsOf {declarations : List Declaration} {slot : DispatchEntry}
    (member : slot ∈ slotsOf declarations) :
    (lastDeclaration? declarations slot.name).map Declaration.place = some slot.implementation := by
  induction declarations using List.reverseRecOn with
  | nil => simp [slotsOf] at member
  | append_singleton declarations last inductionHypothesis =>
    rw [slotsOf_concat] at member
    rw [lastDeclaration?_concat]
    rcases mem_takeSlot member with own | ⟨old, differs⟩
    · simp [own, Declaration.entry]
    · rw [if_neg differs.symm]
      exact inductionHypothesis old

end Slots

namespace Catalog

open Outcome FirstOccurrence

variable {catalog : Catalog} {sorted : List ClassId} {id : ClassId} {chain : List ClassId}

/-! ## Declarations of a class -/

/-- The methods a class declares, in order. -/
def declarations (catalog : Catalog) (id : ClassId) : List Declaration :=
  match catalog.definition? id with
  | some definition =>
    definition.methods.zipIdx.map fun declared => ⟨declared.1, ⟨id, declared.2⟩⟩
  | none => []

/-- Whether a class declares a method of that name. -/
def Declares (catalog : Catalog) (id : ClassId) (name : String) : Prop :=
  ∃ declaration ∈ catalog.declarations id, declaration.name = name

/-- The names of the methods a class declares overridable, in order. -/
def overridableNames (catalog : Catalog) (id : ClassId) : List String :=
  ((catalog.declarations id).filter fun declaration => declaration.method.overridable).map
    Declaration.name

theorem owner_of_mem_declarations {declaration : Declaration}
    (member : declaration ∈ catalog.declarations id) : declaration.place.owner = id := by
  rw [declarations] at member
  cases defined : catalog.definition? id with
  | none => simp [defined] at member
  | some definition =>
    simp only [defined, List.mem_map] at member
    obtain ⟨declared, _, rfl⟩ := member
    rfl

/-- A declaration is found at its place. -/
theorem method?_of_mem_declarations {declaration : Declaration}
    (member : declaration ∈ catalog.declarations id) :
    catalog.method? declaration.place = some declaration.method := by
  rw [declarations] at member
  cases defined : catalog.definition? id with
  | none => simp [defined] at member
  | some definition =>
    simp only [defined, List.mem_map] at member
    obtain ⟨declared, listed, rfl⟩ := member
    simpa [method?, defined] using List.mk_mem_zipIdx_iff_getElem?.mp listed

/-- The method of a name that a class declares is its first declaration of the name. -/
theorem ownMethod?_eq (name : String) :
    catalog.ownMethod? name id =
      ((catalog.declarations id).find? fun declaration => declaration.name = name).map
        Declaration.place := by
  rw [ownMethod?, declarations]
  cases catalog.definition? id with
  | none => rfl
  | some definition =>
    simp only [Option.bind_some, ClassDefinition.methodIndex?, List.findIdx?_eq_fst_find?_zipIdx,
      List.find?_map, Option.map_map]
    rfl

theorem ownMethod?_eq_none_iff {name : String} :
    catalog.ownMethod? name id = none ↔ ¬ catalog.Declares id name := by
  simp [ownMethod?_eq, Declares]

theorem owner_of_ownMethod? {name : String} {method : MethodRef}
    (own : catalog.ownMethod? name id = some method) : method.owner = id := by
  rw [ownMethod?_eq, Option.map_eq_some_iff] at own
  obtain ⟨declaration, located, rfl⟩ := own
  exact owner_of_mem_declarations (List.mem_of_find?_eq_some located)

/-- A class that declares a name has an own method of it. -/
theorem Declares.exists_ownMethod? {name : String} (declares : catalog.Declares id name) :
    ∃ method, catalog.ownMethod? name id = some method ∧ method.owner = id := by
  cases found : catalog.ownMethod? name id with
  | none => exact absurd declares (ownMethod?_eq_none_iff.mp found)
  | some method => exact ⟨method, rfl, owner_of_ownMethod? found⟩

/-! ## Ancestors of a proper class -/

/-- The ancestry of an ancestor is the rest of the ancestry. -/
theorem Ancestry.ancestry_of_eq_append (ancestry : catalog.Ancestry id chain)
    {below above : List ClassId} {ancestor : ClassId} (split : chain = below ++ ancestor :: above) :
    catalog.Ancestry ancestor (ancestor :: above) := by
  induction ancestry generalizing below with
  | root defined =>
    cases below with
    | nil =>
      cases split
      exact .root defined
    | cons => simp at split
  | under defined step upper inductionHypothesis =>
    cases below with
    | nil =>
      cases split
      exact .under defined step upper
    | cons first rest =>
      rw [List.cons_append, List.cons.injEq] at split
      exact inductionHypothesis split.2

/-- The ancestors of a proper class are proper. -/
theorem Ancestry.isProper_of_mem (graph : catalog.SoundGraph)
    (ancestry : catalog.Ancestry id chain) (proper : catalog.IsProper id) :
    ∀ ancestor ∈ chain, catalog.IsProper ancestor := by
  induction ancestry with
  | root => simpa using proper
  | under defined step upper inductionHypothesis =>
    have rest := inductionHypothesis (graph.isProper_of_supertype defined step)
    exact List.forall_mem_cons.mpr ⟨proper, rest⟩

/-! ## Slots of a class -/

theorem overrideSlots_eq (slots : List DispatchEntry) :
    catalog.overrideSlots id slots = (catalog.declarations id).foldl takeSlot slots := by
  rw [overrideSlots, declarations]
  cases catalog.definition? id with
  | none => rfl
  | some definition => simp only [List.foldl_map, takeSlot]

/-- The slots that the declarations of the ancestors of a class make, the root's first. -/
def slotsAlong (catalog : Catalog) (chain : List ClassId) : List DispatchEntry :=
  slotsOf (chain.reverse.flatMap catalog.declarations)

theorem virtualSlots_eq (graph : catalog.SoundGraph) (ancestry : catalog.Ancestry id chain)
    (proper : catalog.IsProper id) :
    catalog.virtualSlots id = .ok (catalog.slotsAlong chain) := by
  have enough := (ancestry.length_lt_walkBound graph).le
  rw [virtualSlots, virtualSlotsWithin_eq graph ancestry proper enough, slotsAlong, slotsOf,
    List.foldl_flatMap, List.foldl_reverse]
  simp only [← overrideSlots_eq]

/-- The last declaration of a name along a hierarchy belongs to the most derived class that
declares the name. -/
theorem lastDeclaration?_flatMap_reverse (chain : List ClassId) (name : String) :
    lastDeclaration? (chain.reverse.flatMap catalog.declarations) name =
      chain.findSome? fun ancestor => lastDeclaration? (catalog.declarations ancestor) name := by
  rw [lastDeclaration?, List.reverse_flatMap, List.reverse_reverse, List.find?_flatMap]
  rfl

theorem lastDeclaration?_eq_none_iff {name : String} :
    lastDeclaration? (catalog.declarations id) name = none ↔ ¬ catalog.Declares id name := by
  simp [lastDeclaration?, Declares]

/-- A method is the last of its name in the most derived class that declares the name, where the
hierarchy is listed from the root down. -/
structure LastDeclared (catalog : Catalog) (hierarchy : List ClassId) (name : String)
    (method : MethodRef) : Prop where
  mostDerived : ∃ above below, hierarchy = above ++ method.owner :: below ∧
    ∀ lower ∈ below, ¬ catalog.Declares lower name
  lastOfClass : ∃ before declaration after,
    catalog.declarations method.owner = before ++ declaration :: after ∧
      declaration.place = method ∧ declaration.name = name ∧
        ∀ later ∈ after, later.name ≠ name

theorem lastDeclared_of_lastDeclaration? {name : String} {declaration : Declaration}
    (last : lastDeclaration? (chain.reverse.flatMap catalog.declarations) name = some declaration) :
    catalog.LastDeclared chain.reverse name declaration.place := by
  rw [lastDeclaration?_flatMap_reverse] at last
  obtain ⟨below, owner, above, split, found, silent⟩ := List.findSome?_eq_some_iff.mp last
  obtain ⟨named, after, before, reversed, others⟩ := List.find?_eq_some_iff_append.mp found
  have declared : catalog.declarations owner = before.reverse ++ declaration :: after.reverse := by
    rw [← List.reverse_reverse (catalog.declarations owner), reversed]
    simp
  have member : declaration ∈ catalog.declarations owner := by simp [declared]
  have isOwner := owner_of_mem_declarations member
  refine ⟨⟨above.reverse, below.reverse, ?_, ?_⟩,
    ⟨before.reverse, declaration, after.reverse, ?_, rfl, ?_, ?_⟩⟩
  · simp [split, isOwner]
  · intro lower member
    exact lastDeclaration?_eq_none_iff.mp (silent lower (List.mem_reverse.mp member))
  · rw [isOwner, declared]
  · simpa using named
  · intro later member
    simpa using others later (List.mem_reverse.mp member)

/-- The search upwards for a name stops at the class of its last declaration. -/
theorem findMethod_of_lastDeclared (graph : catalog.SoundGraph)
    (ancestry : catalog.Ancestry id chain) {name : String} {method : MethodRef}
    (last : catalog.LastDeclared chain.reverse name method) :
    ∃ found, catalog.findMethod id name = .ok (some found) ∧ found.owner = method.owner := by
  obtain ⟨above, below, split, silent⟩ := last.mostDerived
  obtain ⟨before, declaration, after, declared, _, named, _⟩ := last.lastOfClass
  have declares : catalog.Declares method.owner name := ⟨declaration, by simp [declared], named⟩
  obtain ⟨found, own, sameOwner⟩ := declares.exists_ownMethod?
  have chainEq : chain = below.reverse ++ method.owner :: above.reverse := by
    rw [← List.reverse_reverse chain, split]
    simp
  have nothingBelow : below.reverse.findSome? (catalog.ownMethod? name) = none := by
    rw [List.findSome?_eq_none_iff]
    intro lower member
    exact ownMethod?_eq_none_iff.mpr (silent lower (List.mem_reverse.mp member))
  have enough := (ancestry.length_lt_walkBound graph).le
  refine ⟨found, ?_, sameOwner⟩
  rw [findMethod, findMethodWithin_eq ancestry name enough]
  simp [chainEq, List.findSome?_append, nothingBelow, own]

/-! ## Main result -/

/-- The virtual slots of a class, by its hierarchy from the root down. -/
structure SlotTable (catalog : Catalog) (id : ClassId) (hierarchy : List ClassId)
    (slots : List DispatchEntry) : Prop where
  /-- One slot for each name declared overridable, in order of the first such declaration. -/
  names : slots.map DispatchEntry.name = (hierarchy.flatMap catalog.overridableNames).eraseDups
  implementation : ∀ slot ∈ slots, catalog.LastDeclared hierarchy slot.name slot.implementation
  findMethod : ∀ slot ∈ slots, ∃ method, catalog.findMethod id slot.name = .ok (some method) ∧
    method.owner = slot.implementation.owner
  /-- The slots of an ancestor keep their places, and their implementations unless a class below
  it declares the name. -/
  inherited : ∀ above ancestor below, hierarchy = above ++ ancestor :: below →
    ∃ inherited, catalog.virtualSlots ancestor = .ok inherited ∧
      inherited.map DispatchEntry.name <+: slots.map DispatchEntry.name ∧
      ∀ (position : Nat) (slot : DispatchEntry), inherited[position]? = some slot →
        (∀ lower ∈ below, ¬ catalog.Declares lower slot.name) → slots[position]? = some slot

/-- What a class inherits stands where it stood, until a declaration below takes the slot over. -/
theorem exists_inheritedSlots (graph : catalog.SoundGraph) (ancestry : catalog.Ancestry id chain)
    (proper : catalog.IsProper id) {above below : List ClassId} {ancestor : ClassId}
    (split : chain.reverse = above ++ ancestor :: below) :
    ∃ inherited, catalog.virtualSlots ancestor = .ok inherited ∧
      inherited.map DispatchEntry.name <+:
        (catalog.slotsAlong chain).map DispatchEntry.name ∧
      ∀ (position : Nat) (slot : DispatchEntry), inherited[position]? = some slot →
        (∀ lower ∈ below, ¬ catalog.Declares lower slot.name) →
          (catalog.slotsAlong chain)[position]? = some slot := by
  have chainEq : chain = below.reverse ++ ancestor :: above.reverse := by
    rw [← List.reverse_reverse chain, split]
    simp
  have ancestorProper := ancestry.isProper_of_mem graph proper ancestor (by simp [chainEq])
  have inheritedEq := virtualSlots_eq graph (ancestry.ancestry_of_eq_append chainEq) ancestorProper
  have splitDeclarations : chain.reverse.flatMap catalog.declarations =
      (ancestor :: above.reverse).reverse.flatMap catalog.declarations ++
        below.flatMap catalog.declarations := by
    rw [← List.flatMap_append, split]
    simp
  refine ⟨_, inheritedEq, ?_, ?_⟩
  · rw [slotsAlong, slotsAlong, names_slotsOf, names_slotsOf, splitDeclarations,
      List.filter_append, List.map_append]
    exact eraseDups_prefix_append _ _
  · intro position slot found silent
    rw [slotsAlong, splitDeclarations, slotsOf, List.foldl_append]
    apply getElem?_foldl_takeSlot found
    intro declaration member same
    obtain ⟨lower, lowerMember, declared⟩ := List.mem_flatMap.mp member
    exact silent lower lowerMember ⟨declaration, declared, same⟩

theorem slotTable_of_ancestry (graph : catalog.SoundGraph) (ancestry : catalog.Ancestry id chain)
    (proper : catalog.IsProper id) :
    catalog.SlotTable id chain.reverse (catalog.slotsAlong chain) := by
  have last : ∀ slot ∈ catalog.slotsAlong chain,
      catalog.LastDeclared chain.reverse slot.name slot.implementation := by
    intro slot member
    obtain ⟨declaration, found, place⟩ :=
      Option.map_eq_some_iff.mp (implementation_of_mem_slotsOf member)
    rw [← place]
    exact lastDeclared_of_lastDeclaration? found
  refine ⟨?_, last, fun slot member => findMethod_of_lastDeclared graph ancestry (last slot member),
    ?_⟩
  · rw [slotsAlong, names_slotsOf, List.filter_flatMap, List.map_flatMap]
    rfl
  · intro above ancestor below split
    exact exists_inheritedSlots graph ancestry proper split

/-- Every proper class of an accepted graph has the slots its hierarchy's declarations call for, at
the places its ancestors gave them. -/
theorem slotTable_of_sortClasses {catalog : Catalog} {sorted : List ClassId}
    (accepted : catalog.sortClasses = .ok sorted) {id : ClassId} {definition : ClassDefinition}
    (defined : catalog.definition? id = some definition) (proper : definition.isInterface = false) :
    ∃ hierarchy slots, catalog.hierarchy id = .ok hierarchy ∧
      catalog.virtualSlots id = .ok slots ∧ catalog.SlotTable id hierarchy slots := by
  have graph := soundGraph_of_sortClasses accepted
  have order := classOrder_of_sortClasses accepted
  have isProper := isProper_of_isInterface_eq_false defined proper
  obtain ⟨chain, ancestry⟩ := exists_ancestry graph order ⟨definition, defined⟩
  exact ⟨_, _, hierarchy_eq graph ancestry, virtualSlots_eq graph ancestry isProper,
    slotTable_of_ancestry graph ancestry isProper⟩

theorem shapes_slotTable :
    ∃ hierarchy slots, shapes.hierarchy ⟨4⟩ = .ok hierarchy ∧
      shapes.virtualSlots ⟨4⟩ = .ok slots ∧ shapes.SlotTable ⟨4⟩ hierarchy slots :=
  slotTable_of_sortClasses shapes_sortClasses rfl rfl

end Catalog

end TypeRecords
