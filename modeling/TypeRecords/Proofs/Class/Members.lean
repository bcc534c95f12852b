import TypeRecords.Proofs.Class.Interfaces
import TypeRecords.Proofs.Class.Slots

/-!
The members a class can be asked for.

Owns the declarative reading of member tables: which names they have and which method implements
each. The tables of single interfaces, each filled along its own interfaces, are put together and
filtered by name; looking a name up in the result is one pass over the interfaces of the class.
Both the names and the look-up depend on first occurrences only, so they survive the repetitions.

An interface declared earlier in that order wins over a later one, even where the later one extends
it. `shadowed` is a class whose member is left to the declaration that a default overrides.
-/

namespace TypeRecords

namespace Catalog

open Outcome FirstOccurrence

/-! ## Tables that keep the first member of a name -/

section Tables

/-- Adds a member unless the table has one of its name. -/
def addEntry (entries : List DispatchEntry) (entry : DispatchEntry) : List DispatchEntry :=
  if hasMember entries entry.name then entries else entries ++ [entry]

theorem hasMember_iff {entries : List DispatchEntry} {name : String} :
    hasMember entries name = true ↔ name ∈ entries.map DispatchEntry.name := by
  simp [hasMember]

theorem prefix_foldl_addEntry (entries added : List DispatchEntry) :
    entries <+: added.foldl addEntry entries := by
  induction added generalizing entries with
  | nil => exact List.prefix_refl _
  | cons entry rest inductionHypothesis =>
    have step : entries <+: addEntry entries entry := by
      rw [addEntry]
      split_ifs
      · exact List.prefix_refl _
      · exact List.prefix_append _ _
    exact step.trans (inductionHypothesis _)

/-- The names of a table are those it starts with and the new ones among the added. -/
theorem names_foldl_addEntry {entries : List DispatchEntry}
    (distinct : (entries.map DispatchEntry.name).Nodup) (added : List DispatchEntry) :
    (added.foldl addEntry entries).map DispatchEntry.name =
      (entries.map DispatchEntry.name ++ added.map DispatchEntry.name).eraseDups := by
  induction added using List.reverseRecOn with
  | nil => simp [eraseDups_eq_self distinct]
  | append_singleton added last inductionHypothesis =>
    rw [List.foldl_append, List.map_append, ← List.append_assoc, List.map_singleton,
      eraseDups_concat, ← inductionHypothesis, List.foldl_cons, List.foldl_nil, addEntry]
    have sameTest : hasMember (added.foldl addEntry entries) last.name = true ↔
        last.name ∈ entries.map DispatchEntry.name ++ added.map DispatchEntry.name := by
      rw [hasMember_iff, inductionHypothesis, List.mem_eraseDups]
    simp only [sameTest]
    split_ifs
    · rfl
    · rw [List.map_append, List.map_singleton]

/-- Looking a name up in a table is looking it up among all that was added. -/
theorem find?_foldl_addEntry (entries added : List DispatchEntry) (name : String) :
    (added.foldl addEntry entries).find? (fun entry => entry.name = name) =
      (entries ++ added).find? fun entry => entry.name = name := by
  induction added generalizing entries with
  | nil => simp
  | cons entry rest inductionHypothesis =>
    rw [List.foldl_cons, inductionHypothesis, addEntry]
    by_cases known : hasMember entries entry.name = true
    · -- The member left out is one of a name that the search meets earlier, or does not look for.
      rw [if_pos known, List.find?_append, List.find?_append, List.find?_cons]
      by_cases same : entry.name = name
      · obtain ⟨earlier, member, named⟩ := List.mem_map.mp (hasMember_iff.mp known)
        have answered : (entries.find? fun entry => entry.name = name).isSome = true :=
          List.find?_isSome.mpr ⟨earlier, member, by simp [named, same]⟩
        rw [Option.or_of_isSome answered, Option.or_of_isSome answered]
      · simp [same]
    · rw [if_neg known, List.append_assoc, List.singleton_append]

/-- Where names are distinct, look-up finds each member. -/
theorem find?_eq_some_of_mem {entries : List DispatchEntry}
    (distinct : (entries.map DispatchEntry.name).Nodup) {entry : DispatchEntry}
    (member : entry ∈ entries) :
    entries.find? (fun other => other.name = entry.name) = some entry := by
  induction entries with
  | nil => simp at member
  | cons first rest inductionHypothesis =>
    rw [List.map_cons, List.nodup_cons] at distinct
    rcases List.mem_cons.mp member with same | later
    · simp [same]
    · have differs : first.name ≠ entry.name :=
        fun same => distinct.1 (same ▸ List.mem_map_of_mem later)
      rw [List.find?_cons_of_neg (by simpa using differs)]
      exact inductionHypothesis distinct.2 later

end Tables

variable {catalog : Catalog} {sorted : List ClassId} {id : ClassId} {chain : List ClassId}

/-! ## What a class declares -/

/-- The members a class declares itself. -/
def ownEntries (catalog : Catalog) (id : ClassId) : List DispatchEntry :=
  (catalog.declarations id).map Declaration.entry

/-- The names of the methods a class declares. -/
def ownNames (catalog : Catalog) (id : ClassId) : List String :=
  (catalog.declarations id).map Declaration.name

theorem map_name_ownEntries (id : ClassId) :
    (catalog.ownEntries id).map DispatchEntry.name = catalog.ownNames id := by
  simp [ownEntries, ownNames, Declaration.entry, Function.comp_def]

theorem mem_ownNames {name : String} : name ∈ catalog.ownNames id ↔ catalog.Declares id name := by
  simp [ownNames, Declares]

/-- The own member of a name is made of the own method of the name. -/
theorem find?_ownEntries (id : ClassId) (name : String) :
    ((catalog.ownEntries id).find? fun entry => entry.name = name) =
      (catalog.ownMethod? name id).map fun method => ⟨name, method⟩ := by
  have sameSearch : (fun entry : DispatchEntry => decide (entry.name = name)) ∘ Declaration.entry =
      fun declaration => decide (declaration.name = name) := rfl
  rw [ownEntries, ownMethod?_eq, List.find?_map, Option.map_map, sameSearch]
  cases found : (catalog.declarations id).find? fun declaration => declaration.name = name with
  | none => rfl
  | some declaration =>
    have named : declaration.name = name := by simpa using List.find?_some found
    simp [Declaration.entry, named]

/-! ## Tables of interfaces -/

/-- The members of an interface: those declared along its expansion, the first of each name. -/
def interfaceTable (catalog : Catalog) (interface : ClassId) : List DispatchEntry :=
  ((catalog.expansion interface).eraseDups.flatMap catalog.ownEntries).foldl addEntry []

theorem foldl_addDeclared {definition : ClassDefinition}
    (defined : catalog.definition? id = some definition) (entries : List DispatchEntry) :
    definition.methods.zipIdx.foldl (addDeclared id) entries =
      (catalog.ownEntries id).foldl addEntry entries := by
  rw [ownEntries, declarations, defined, List.map_map, List.foldl_map]
  rfl

theorem interfaceMembers_eq (graph : catalog.SoundGraph) (order : catalog.ClassOrder sorted)
    {definition : ClassDefinition} (defined : catalog.definition? id = some definition)
    (isInterface : definition.isInterface = true) :
    catalog.interfaceMembers id = .ok (catalog.interfaceTable id) := by
  have isDefined : catalog.IsDefined id := ⟨definition, defined⟩
  rw [interfaceMembers, interfaces_eq_of_isInterface graph order defined isInterface, ok_bind,
    ← eraseDups_expansion graph order isDefined, interfaceTable, List.foldl_flatMap]
  apply foldlM_eq_ok_of_each
  intro other member entries
  have inExpansion := List.mem_eraseDups.mp member
  obtain ⟨otherDefinition, found⟩ := graph.isDefined_of_mem_expansion order isDefined inExpansion
  rw [definition_eq_ok.mpr found, ok_bind, foldl_addDeclared found]
  rfl

theorem names_interfaceTable (interface : ClassId) :
    (catalog.interfaceTable interface).map DispatchEntry.name =
      ((catalog.expansion interface).flatMap catalog.ownNames).eraseDups := by
  rw [interfaceTable, names_foldl_addEntry (by simp), List.map_nil, List.nil_append,
    List.map_flatMap]
  simp only [map_name_ownEntries]
  exact eraseDups_flatMap_eraseDups _ _

/-- The member of a name is taken from the first in the expansion that declares it. -/
theorem find?_interfaceTable (interface : ClassId) (name : String) :
    ((catalog.interfaceTable interface).find? fun entry => entry.name = name) =
      (catalog.expansion interface).findSome? fun other =>
        (catalog.ownMethod? name other).map fun method => ⟨name, method⟩ := by
  rw [interfaceTable, find?_foldl_addEntry, List.nil_append, List.find?_flatMap,
    findSome?_eraseDups]
  simp only [find?_ownEntries]

/-! ## Tables of a list of interfaces -/

section Offered

variable {found : List ClassId}

/-- The names in the tables of the interfaces found for a class are those the interfaces declare
themselves. -/
theorem names_flatMap_interfaceTable
    (stable : (found.flatMap catalog.expansion).eraseDups = found) :
    ((found.flatMap catalog.interfaceTable).map DispatchEntry.name).eraseDups =
      (found.flatMap catalog.ownNames).eraseDups := by
  have tables : ((found.flatMap catalog.interfaceTable).map DispatchEntry.name).eraseDups =
      (found.flatMap fun interface =>
        (catalog.expansion interface).flatMap catalog.ownNames).eraseDups := by
    rw [List.map_flatMap]
    apply eraseDups_flatMap_congr
    intro interface _
    rw [names_interfaceTable, eraseDups_eq_self (nodup_eraseDups _)]
  rw [tables, ← List.flatMap_assoc, ← eraseDups_flatMap_eraseDups, stable]

/-- Looking a name up in the tables of the interfaces found for a class is one pass over the
interfaces. -/
theorem find?_flatMap_interfaceTable
    (stable : (found.flatMap catalog.expansion).eraseDups = found) (name : String) :
    ((found.flatMap catalog.interfaceTable).find? fun entry => entry.name = name) =
      (found.findSome? (catalog.ownMethod? name)).map fun method => ⟨name, method⟩ := by
  rw [List.find?_flatMap]
  simp only [find?_interfaceTable]
  rw [← findSome?_flatMap, ← findSome?_eraseDups, stable, List.map_findSome?]
  rfl

end Offered

/-! ## Tables of classes -/

/-- A member as a class has it, given the methods of the class itself. -/
def implementedBy (own : String → Option MethodRef) (member : DispatchEntry) : DispatchEntry :=
  ⟨member.name, (own member.name).getD member.implementation⟩

theorem addInterfaceMember_eq {own : String → Option MethodRef}
    (answered : ∀ name, catalog.findMethod id name = .ok (own name))
    (entries : List DispatchEntry) (member : DispatchEntry) :
    catalog.addInterfaceMember id false entries member =
      .ok (addEntry entries (implementedBy own member)) := by
  have sameName : (implementedBy own member).name = member.name := rfl
  rw [addInterfaceMember, addEntry, sameName]
  by_cases known : hasMember entries member.name = true
  · simp [known, pure, Except.pure]
  · simp [known, answered, implementedBy, ok_bind, pure, Except.pure]

/-- The interfaces found from what the ancestors of a class list. -/
def interfacesAlong (catalog : Catalog) (chain : List ClassId) : List ClassId :=
  ((chain.flatMap catalog.listedInterfaces).flatMap catalog.expansion).eraseDups

/-- The methods the ancestors of a class have, the most derived of each name. -/
def methodsAlong (catalog : Catalog) (chain : List ClassId) (name : String) : Option MethodRef :=
  chain.findSome? (catalog.ownMethod? name)

theorem findMethod_eq (graph : catalog.SoundGraph) (ancestry : catalog.Ancestry id chain)
    (name : String) : catalog.findMethod id name = .ok (catalog.methodsAlong chain name) :=
  findMethodWithin_eq ancestry name (ancestry.length_lt_walkBound graph).le

theorem methodsAlong_eq_none_iff {name : String} :
    catalog.methodsAlong chain name = none ↔
      ¬ ∃ ancestor ∈ chain, catalog.Declares ancestor name := by
  simp [methodsAlong, List.findSome?_eq_none_iff, ownMethod?_eq_none_iff]

theorem isInterface_of_mem_interfacesAlong (graph : catalog.SoundGraph)
    (order : catalog.ClassOrder sorted) {interface : ClassId}
    (member : interface ∈ catalog.interfacesAlong chain) : catalog.IsInterface interface := by
  apply graph.isInterface_of_mem_flatMap order _ (List.mem_eraseDups.mp member)
  intro listed listedMember
  obtain ⟨ancestor, _, listedBy⟩ := List.mem_flatMap.mp listedMember
  exact graph.isInterface_of_mem_listedInterfaces listedBy

theorem eraseDups_flatMap_interfacesAlong (graph : catalog.SoundGraph)
    (order : catalog.ClassOrder sorted) (chain : List ClassId) :
    ((catalog.interfacesAlong chain).flatMap catalog.expansion).eraseDups =
      catalog.interfacesAlong chain := by
  apply eraseDups_flatMap_expansion graph order
  intro interface member
  obtain ⟨ancestor, _, listed⟩ := List.mem_flatMap.mp member
  exact (graph.isInterface_of_mem_listedInterfaces listed).isDefined

/-- The members of a proper class: its slots, then what its interfaces offer, implemented by the
class where it has a method of the name. -/
def memberTable (catalog : Catalog) (chain : List ClassId) : List DispatchEntry :=
  (((catalog.interfacesAlong chain).flatMap catalog.interfaceTable).map
    (implementedBy (catalog.methodsAlong chain))).foldl addEntry (catalog.slotsAlong chain)

theorem members_eq (graph : catalog.SoundGraph) (order : catalog.ClassOrder sorted)
    (ancestry : catalog.Ancestry id chain) (proper : catalog.IsProper id) :
    catalog.members id = .ok (catalog.memberTable chain) := by
  obtain ⟨definition, defined⟩ := ancestry.isDefined_of_mem id
    (List.mem_of_head? ancestry.head?_eq)
  have offered : (catalog.interfacesAlong chain).mapM catalog.interfaceMembers =
      .ok ((catalog.interfacesAlong chain).map catalog.interfaceTable) := by
    apply mapM_eq_ok_of_each
    intro interface member
    obtain ⟨interfaceDefinition, found, isInterface⟩ :=
      isInterface_of_mem_interfacesAlong graph order member
    exact interfaceMembers_eq graph order found isInterface
  have found : catalog.interfaces id = .ok (catalog.interfacesAlong chain) :=
    interfaces_eq_of_isProper graph order ancestry proper
  rw [members, virtualSlots_eq graph ancestry proper, ok_bind, definition_eq_ok.mpr defined,
    ok_bind, found, ok_bind, offered, ok_bind, proper definition defined, memberTable,
    List.foldl_map]
  apply foldlM_eq_ok_of_each
  intro member _ entries
  exact addInterfaceMember_eq (findMethod_eq graph ancestry) entries member

theorem nodup_names_slotsAlong (chain : List ClassId) :
    ((catalog.slotsAlong chain).map DispatchEntry.name).Nodup := by
  rw [slotsAlong, names_slotsOf]
  exact nodup_eraseDups _

/-- The names of the members of a class, in order: those of its slots, then those its interfaces
declare. -/
theorem names_memberTable (graph : catalog.SoundGraph) (order : catalog.ClassOrder sorted)
    (chain : List ClassId) :
    (catalog.memberTable chain).map DispatchEntry.name =
      ((catalog.slotsAlong chain).map DispatchEntry.name ++
        (catalog.interfacesAlong chain).flatMap catalog.ownNames).eraseDups := by
  have sameNames : DispatchEntry.name ∘ implementedBy (catalog.methodsAlong chain) =
      DispatchEntry.name := rfl
  rw [memberTable, names_foldl_addEntry (nodup_names_slotsAlong _), List.map_map, sameNames]
  exact eraseDups_append_congr rfl
    (names_flatMap_interfaceTable (eraseDups_flatMap_interfacesAlong graph order chain))

/-- A member without a slot is one that an interface declares, implemented by the class where it has
a method of the name. -/
theorem exists_ownMethod?_of_mem_memberTable (graph : catalog.SoundGraph)
    (order : catalog.ClassOrder sorted) {entry : DispatchEntry}
    (member : entry ∈ catalog.memberTable chain)
    (noSlot : entry.name ∉ (catalog.slotsAlong chain).map DispatchEntry.name) :
    ∃ method, (catalog.interfacesAlong chain).findSome? (catalog.ownMethod? entry.name) =
        some method ∧
      entry.implementation = (catalog.methodsAlong chain entry.name).getD method := by
  have distinct : ((catalog.memberTable chain).map DispatchEntry.name).Nodup := by
    rw [names_memberTable graph order]
    exact nodup_eraseDups _
  have located := find?_eq_some_of_mem distinct member
  have missing : (catalog.slotsAlong chain).find? (fun slot => slot.name = entry.name) = none := by
    rw [List.find?_eq_none]
    intro slot slotMember
    have differs : slot.name ≠ entry.name :=
      fun same => noSlot (same ▸ List.mem_map_of_mem slotMember)
    simpa using differs
  have sameSearch : (fun other : DispatchEntry => decide (other.name = entry.name)) ∘
      implementedBy (catalog.methodsAlong chain) = fun other => decide (other.name = entry.name) :=
    rfl
  rw [memberTable, find?_foldl_addEntry, List.find?_append, missing, Option.none_or,
    List.find?_map, sameSearch,
    find?_flatMap_interfaceTable (eraseDups_flatMap_interfacesAlong graph order chain),
    Option.map_map, Option.map_eq_some_iff] at located
  obtain ⟨method, found, same⟩ := located
  exact ⟨method, found, (congrArg DispatchEntry.implementation same).symm⟩

/-! ## Members by declaration -/

/-- A method is the first of its name in the first interface of a list that declares the name. -/
structure FirstDeclared (catalog : Catalog) (found : List ClassId) (name : String)
    (method : MethodRef) : Prop where
  firstInterface : ∃ earlier later, found = earlier ++ method.owner :: later ∧
    ∀ interface ∈ earlier, ¬ catalog.Declares interface name
  firstOfInterface : ∃ before declaration after,
    catalog.declarations method.owner = before ++ declaration :: after ∧
      declaration.place = method ∧ declaration.name = name ∧
        ∀ other ∈ before, other.name ≠ name

theorem firstDeclared_of_findSome? {found : List ClassId} {name : String} {method : MethodRef}
    (first : found.findSome? (catalog.ownMethod? name) = some method) :
    catalog.FirstDeclared found name method := by
  obtain ⟨earlier, owner, later, split, own, silent⟩ := List.findSome?_eq_some_iff.mp first
  rw [ownMethod?_eq, Option.map_eq_some_iff] at own
  obtain ⟨declaration, located, place⟩ := own
  obtain ⟨named, before, after, declared, others⟩ := List.find?_eq_some_iff_append.mp located
  have isOwner : method.owner = owner := by
    rw [← place]
    exact owner_of_mem_declarations (List.mem_of_find?_eq_some located)
  refine ⟨⟨earlier, later, isOwner ▸ split, ?_⟩,
    ⟨before, declaration, after, isOwner ▸ declared, place, by simpa using named, ?_⟩⟩
  · intro interface member
    exact ownMethod?_eq_none_iff.mp (silent interface member)
  · intro other member
    simpa using others other member

/-- The members a proper class can be asked for, by its hierarchy from the root down, its slots and
its interfaces. -/
structure MemberTable (catalog : Catalog) (id : ClassId) (hierarchy : List ClassId)
    (slots : List DispatchEntry) (found : List ClassId) (entries : List DispatchEntry) : Prop where
  slotsFirst : slots <+: entries
  namesDistinct : (entries.map DispatchEntry.name).Nodup
  mem_names : ∀ name, name ∈ entries.map DispatchEntry.name ↔
    name ∈ slots.map DispatchEntry.name ∨ ∃ interface ∈ found, catalog.Declares interface name
  /-- Without a slot, a member is implemented by the most derived class that declares the name. -/
  byClass : ∀ entry ∈ entries, entry.name ∉ slots.map DispatchEntry.name →
    (∃ ancestor ∈ hierarchy, catalog.Declares ancestor entry.name) →
      catalog.findMethod id entry.name = .ok (some entry.implementation)
  /-- Where no class declares the name, the first interface that does implements the member. -/
  byInterface : ∀ entry ∈ entries, entry.name ∉ slots.map DispatchEntry.name →
    (¬ ∃ ancestor ∈ hierarchy, catalog.Declares ancestor entry.name) →
      catalog.FirstDeclared found entry.name entry.implementation

/-- A member with the name of a slot is that slot. -/
theorem MemberTable.mem_slots {hierarchy : List ClassId} {slots : List DispatchEntry}
    {found : List ClassId} {entries : List DispatchEntry}
    (table : catalog.MemberTable id hierarchy slots found entries) {entry : DispatchEntry}
    (member : entry ∈ entries) (named : entry.name ∈ slots.map DispatchEntry.name) :
    entry ∈ slots := by
  obtain ⟨slot, slotMember, sameName⟩ := List.mem_map.mp named
  have same : slot = entry := List.inj_on_of_nodup_map table.namesDistinct
    (table.slotsFirst.subset slotMember) member sameName
  exact same ▸ slotMember

theorem memberTable_of_ancestry (graph : catalog.SoundGraph) (order : catalog.ClassOrder sorted)
    (ancestry : catalog.Ancestry id chain) :
    catalog.MemberTable id chain.reverse (catalog.slotsAlong chain)
      (catalog.interfacesAlong chain) (catalog.memberTable chain) := by
  have names := names_memberTable graph order chain
  have sameDeclared : ∀ name, (∃ ancestor ∈ chain.reverse, catalog.Declares ancestor name) ↔
      ∃ ancestor ∈ chain, catalog.Declares ancestor name := by simp
  refine ⟨prefix_foldl_addEntry _ _, ?_, ?_, ?_, ?_⟩
  · rw [names]
    exact nodup_eraseDups _
  · intro name
    rw [names, List.mem_eraseDups, List.mem_append, List.mem_flatMap]
    simp only [mem_ownNames]
  · intro entry member noSlot declared
    obtain ⟨method, _, implementation⟩ :=
      exists_ownMethod?_of_mem_memberTable graph order member noSlot
    rw [findMethod_eq graph ancestry]
    cases own : catalog.methodsAlong chain entry.name with
    | none => exact absurd ((sameDeclared _).mp declared) (methodsAlong_eq_none_iff.mp own)
    | some classMethod => rw [implementation, own, Option.getD_some]
  · intro entry member noSlot undeclared
    obtain ⟨method, first, implementation⟩ :=
      exists_ownMethod?_of_mem_memberTable graph order member noSlot
    have own : catalog.methodsAlong chain entry.name = none :=
      methodsAlong_eq_none_iff.mpr fun declared => undeclared ((sameDeclared _).mpr declared)
    rw [implementation, own, Option.getD_none]
    exact firstDeclared_of_findSome? first

/-- The members of every proper class of an accepted graph are those its slots and its interfaces
call for. -/
theorem memberTable_of_sortClasses {catalog : Catalog} {sorted : List ClassId}
    (accepted : catalog.sortClasses = .ok sorted) {id : ClassId} {definition : ClassDefinition}
    (defined : catalog.definition? id = some definition) (proper : definition.isInterface = false) :
    ∃ hierarchy slots found entries, catalog.hierarchy id = .ok hierarchy ∧
      catalog.virtualSlots id = .ok slots ∧ catalog.interfaces id = .ok found ∧
      catalog.members id = .ok entries ∧ catalog.MemberTable id hierarchy slots found entries := by
  have graph := soundGraph_of_sortClasses accepted
  have order := classOrder_of_sortClasses accepted
  have isProper := isProper_of_isInterface_eq_false defined proper
  obtain ⟨chain, ancestry⟩ := exists_ancestry graph order ⟨definition, defined⟩
  exact ⟨_, _, _, _, hierarchy_eq graph ancestry, virtualSlots_eq graph ancestry isProper,
    interfaces_eq_of_isProper graph order ancestry isProper,
    members_eq graph order ancestry isProper, memberTable_of_ancestry graph order ancestry⟩

/-- A class under a base class, which lists an interface before one that extends it and has a
default for its method. Its further members are a slot it overrides, one it inherits, and a method
of the base class that an interface asks for. Another interface lists the same two. -/
def shadowed : Catalog where
  classes := .ofList [
    (ClassId.root, .defined {
      name := rootName
      kind := .proper
      modality := .inheritable
      scope := .topLevel
      superclass := none
      interfaces := []
      fields := []
      methods := [⟨"toString()", .concrete, some ⟨1⟩, true⟩]
      exportSymbol := none }),
    (⟨1⟩, .defined {
      name := ⟨["demo", "Named"]⟩
      kind := .interface
      modality := .abstract
      scope := .topLevel
      superclass := none
      interfaces := []
      fields := []
      methods := [⟨"name()", .abstract, none, true⟩]
      exportSymbol := none }),
    (⟨2⟩, .defined {
      name := ⟨["demo", "Titled"]⟩
      kind := .interface
      modality := .abstract
      scope := .topLevel
      superclass := none
      interfaces := [⟨1⟩]
      fields := []
      methods := [⟨"name()", .concrete, some ⟨2⟩, true⟩]
      exportSymbol := none }),
    (⟨3⟩, .defined {
      name := ⟨["demo", "Base"]⟩
      kind := .proper
      modality := .inheritable
      scope := .topLevel
      superclass := none
      interfaces := []
      fields := []
      methods := [⟨"label()", .concrete, some ⟨3⟩, false⟩, ⟨"owner()", .external, some ⟨4⟩, true⟩]
      exportSymbol := none }),
    (⟨4⟩, .defined {
      name := ⟨["demo", "Labelled"]⟩
      kind := .interface
      modality := .abstract
      scope := .topLevel
      superclass := none
      interfaces := []
      fields := []
      methods := [⟨"label()", .abstract, none, true⟩]
      exportSymbol := none }),
    (⟨5⟩, .defined {
      name := ⟨["demo", "Page"]⟩
      kind := .proper
      modality := .final
      scope := .topLevel
      superclass := some ⟨3⟩
      interfaces := [⟨4⟩, ⟨1⟩, ⟨2⟩]
      fields := []
      methods := [⟨"toString()", .concrete, some ⟨5⟩, false⟩]
      exportSymbol := none }),
    (⟨6⟩, .defined {
      name := ⟨["demo", "Entry"]⟩
      kind := .interface
      modality := .abstract
      scope := .topLevel
      superclass := none
      interfaces := [⟨1⟩, ⟨2⟩]
      fields := []
      methods := []
      exportSymbol := none })]
  functions := .empty
  valueBoxes := .empty

theorem shadowed_sortClasses :
    shadowed.sortClasses = .ok [ClassId.root, ⟨1⟩, ⟨3⟩, ⟨4⟩, ⟨2⟩, ⟨5⟩, ⟨6⟩] := by
  cbv

theorem shadowed_memberTable :
    ∃ hierarchy slots found entries, shadowed.hierarchy ⟨5⟩ = .ok hierarchy ∧
      shadowed.virtualSlots ⟨5⟩ = .ok slots ∧ shadowed.interfaces ⟨5⟩ = .ok found ∧
      shadowed.members ⟨5⟩ = .ok entries ∧
      shadowed.MemberTable ⟨5⟩ hierarchy slots found entries :=
  memberTable_of_sortClasses shadowed_sortClasses rfl rfl

/-! ## Interfaces that extend each other -/

/-- No member of a table is implemented by an interface that a listed interface extends, if that
declares the member too. -/
def MostSpecific (catalog : Catalog) (found : List ClassId) (entries : List DispatchEntry) : Prop :=
  ∀ entry ∈ entries, ∀ sub ∈ found, ∀ above, catalog.interfaces sub = .ok above →
    entry.implementation.owner ∈ above → ¬ catalog.Declares sub entry.name

/-- A table has all members that the listed interfaces declare, and an interface takes a member from
one that extends it only by standing before it in the list. -/
structure EarliestWins (catalog : Catalog) (found : List ClassId) (entries : List DispatchEntry) :
    Prop where
  complete : ∀ interface ∈ found, ∀ name, catalog.Declares interface name →
    name ∈ entries.map DispatchEntry.name
  earlier : ∀ entry ∈ entries, ∀ sub ∈ found, ∀ above, catalog.interfaces sub = .ok above →
    entry.implementation.owner ∈ above → catalog.Declares sub entry.name →
      found.idxOf entry.implementation.owner < found.idxOf sub

/-- The first interface to declare a name stands before every other that does. -/
theorem FirstDeclared.idxOf_lt {found : List ClassId} {name : String} {method : MethodRef}
    (first : catalog.FirstDeclared found name method) {other : ClassId}
    (declares : catalog.Declares other name) (differs : other ≠ method.owner) :
    found.idxOf method.owner < found.idxOf other := by
  obtain ⟨earlier, later, split, silent⟩ := first.firstInterface
  obtain ⟨before, declaration, after, declared, _, named, _⟩ := first.firstOfInterface
  have ownerDeclares : catalog.Declares method.owner name :=
    ⟨declaration, by simp [declared], named⟩
  have ownerNotEarlier : method.owner ∉ earlier := fun member => silent _ member ownerDeclares
  have otherNotEarlier : other ∉ earlier := fun member => silent _ member declares
  rw [split, List.idxOf_append_of_notMem ownerNotEarlier, List.idxOf_cons_self,
    List.idxOf_append_of_notMem otherNotEarlier, List.idxOf_cons_ne _ differs.symm]
  omega

/-- What an interface extends is an interface other than itself. -/
theorem isInterface_and_ne_of_mem_interfaces (graph : catalog.SoundGraph)
    (order : catalog.ClassOrder sorted) {sub other : ClassId}
    (subIsInterface : catalog.IsInterface sub) {above : List ClassId}
    (found : catalog.interfaces sub = .ok above) (member : other ∈ above) :
    catalog.IsInterface other ∧ sub ≠ other := by
  obtain ⟨definition, defined, isInterface⟩ := subIsInterface
  have isDefined : catalog.IsDefined sub := ⟨definition, defined⟩
  rw [interfaces_eq_of_isInterface graph order defined isInterface, Except.ok.injEq] at found
  have distinct := nodup_eraseDups (catalog.expansion sub)
  rw [eraseDups_expansion graph order isDefined, found, List.nodup_cons] at distinct
  have inExpansion : other ∈ catalog.expansion sub := by
    rw [← List.mem_eraseDups, eraseDups_expansion graph order isDefined, found]
    exact List.mem_cons_of_mem _ member
  have otherIsInterface := graph.isInterface_of_mem_expansion order
    ⟨definition, defined, isInterface⟩ inExpansion
  exact ⟨otherIsInterface, fun same => distinct.1 (same ▸ member)⟩

/-- The earliest interface wins, where members that an interface implements are implemented by the
first interface that declares them. -/
theorem earliestWins_of_firstDeclared (graph : catalog.SoundGraph)
    (order : catalog.ClassOrder sorted) {found : List ClassId} {entries : List DispatchEntry}
    (allInterfaces : ∀ interface ∈ found, catalog.IsInterface interface)
    (complete : ∀ interface ∈ found, ∀ name, catalog.Declares interface name →
      name ∈ entries.map DispatchEntry.name)
    (first : ∀ entry ∈ entries, catalog.IsInterface entry.implementation.owner →
      catalog.FirstDeclared found entry.name entry.implementation) :
    catalog.EarliestWins found entries := by
  refine ⟨complete, ?_⟩
  intro entry member sub subMember above subAbove ownerAbove declares
  obtain ⟨ownerIsInterface, differs⟩ := isInterface_and_ne_of_mem_interfaces graph order
    (allInterfaces sub subMember) subAbove ownerAbove
  exact (first entry member ownerIsInterface).idxOf_lt declares differs

/-- A member of a class belongs to an interface only where no class declares it. -/
theorem MemberTable.firstDeclared_of_isInterface {hierarchy : List ClassId}
    {slots entries : List DispatchEntry} {found : List ClassId}
    (table : catalog.MemberTable id hierarchy slots found entries)
    (slotTable : catalog.SlotTable id hierarchy slots)
    (allProper : ∀ ancestor ∈ hierarchy, catalog.IsProper ancestor)
    (answered : ∀ name method, catalog.findMethod id name = .ok (some method) →
      method.owner ∈ hierarchy)
    {entry : DispatchEntry} (member : entry ∈ entries)
    (isInterface : catalog.IsInterface entry.implementation.owner) :
    catalog.FirstDeclared found entry.name entry.implementation := by
  have notAncestor : entry.implementation.owner ∉ hierarchy :=
    fun ancestor => isInterface.not_isProper (allProper _ ancestor)
  have noSlot : entry.name ∉ slots.map DispatchEntry.name := by
    intro named
    have last := slotTable.implementation entry (table.mem_slots member named)
    obtain ⟨above, below, split, _⟩ := last.mostDerived
    exact notAncestor (by rw [split]; simp)
  apply table.byInterface entry member noSlot
  intro declared
  exact notAncestor (answered _ _ (table.byClass entry member noSlot declared))

theorem earliestWins_memberTable (graph : catalog.SoundGraph) (order : catalog.ClassOrder sorted)
    (ancestry : catalog.Ancestry id chain) (proper : catalog.IsProper id) :
    catalog.EarliestWins (catalog.interfacesAlong chain) (catalog.memberTable chain) := by
  have table := memberTable_of_ancestry graph order ancestry
  have slotTable := slotTable_of_ancestry graph ancestry proper
  have allProper : ∀ ancestor ∈ chain.reverse, catalog.IsProper ancestor := by
    intro ancestor member
    exact ancestry.isProper_of_mem graph proper ancestor (List.mem_reverse.mp member)
  have answered : ∀ name method, catalog.findMethod id name = .ok (some method) →
      method.owner ∈ chain.reverse := by
    intro name method found
    rw [findMethod_eq graph ancestry, Except.ok.injEq] at found
    obtain ⟨ancestor, member, own⟩ := List.exists_of_findSome?_eq_some found
    rw [owner_of_ownMethod? own]
    exact List.mem_reverse.mpr member
  apply earliestWins_of_firstDeclared graph order
  · intro interface member
    exact isInterface_of_mem_interfacesAlong graph order member
  · intro interface member name declares
    exact (table.mem_names name).mpr (.inr ⟨interface, member, declares⟩)
  · intro entry member isInterface
    exact table.firstDeclared_of_isInterface slotTable allProper answered member isInterface

theorem earliestWins_interfaceTable (graph : catalog.SoundGraph)
    (order : catalog.ClassOrder sorted) (isInterface : catalog.IsInterface id) :
    catalog.EarliestWins (catalog.expansion id).eraseDups (catalog.interfaceTable id) := by
  have distinct : ((catalog.interfaceTable id).map DispatchEntry.name).Nodup := by
    rw [names_interfaceTable]
    exact nodup_eraseDups _
  apply earliestWins_of_firstDeclared graph order
  · intro interface member
    exact graph.isInterface_of_mem_expansion order isInterface (List.mem_eraseDups.mp member)
  · intro interface member name declares
    rw [names_interfaceTable, List.mem_eraseDups, List.mem_flatMap]
    exact ⟨interface, List.mem_eraseDups.mp member, mem_ownNames.mpr declares⟩
  · intro entry member _
    have located := find?_eq_some_of_mem distinct member
    rw [find?_interfaceTable, ← findSome?_eraseDups] at located
    apply firstDeclared_of_findSome?
    obtain ⟨earlier, owner, later, split, own, silent⟩ := List.findSome?_eq_some_iff.mp located
    obtain ⟨method, ownMethod, same⟩ := Option.map_eq_some_iff.mp own
    refine List.findSome?_eq_some_iff.mpr ⟨earlier, owner, later, split, ?_, ?_⟩
    · rw [ownMethod, ← same]
    · intro other otherMember
      exact Option.map_eq_none_iff.mp (silent other otherMember)

/-- In the tables of an accepted graph, an interface implements a member that one extending it
declares too only if it comes first among the interfaces. An interface comes before all it
extends. -/
theorem earliestWins_of_sortClasses {catalog : Catalog} {sorted : List ClassId}
    (accepted : catalog.sortClasses = .ok sorted) {id : ClassId} {definition : ClassDefinition}
    (defined : catalog.definition? id = some definition) :
    (definition.isInterface = false → ∃ found entries, catalog.interfaces id = .ok found ∧
      catalog.members id = .ok entries ∧ catalog.EarliestWins found entries) ∧
    (definition.isInterface = true → ∃ found entries, catalog.interfaces id = .ok found ∧
      catalog.interfaceMembers id = .ok entries ∧ catalog.EarliestWins (id :: found) entries) := by
  have graph := soundGraph_of_sortClasses accepted
  have order := classOrder_of_sortClasses accepted
  have isDefined : catalog.IsDefined id := ⟨definition, defined⟩
  constructor
  · intro proper
    have isProper := isProper_of_isInterface_eq_false defined proper
    obtain ⟨chain, ancestry⟩ := exists_ancestry graph order isDefined
    exact ⟨_, _, interfaces_eq_of_isProper graph order ancestry isProper,
      members_eq graph order ancestry isProper,
      earliestWins_memberTable graph order ancestry isProper⟩
  · intro isInterface
    have wins := earliestWins_interfaceTable graph order ⟨definition, defined, isInterface⟩
    rw [eraseDups_expansion graph order isDefined] at wins
    exact ⟨_, _, interfaces_eq_of_isInterface graph order defined isInterface,
      interfaceMembers_eq graph order defined isInterface, wins⟩

theorem shadowed_earliestWins :
    (∃ found entries, shadowed.interfaces ⟨5⟩ = .ok found ∧ shadowed.members ⟨5⟩ = .ok entries ∧
      shadowed.EarliestWins found entries) ∧
    (∃ found entries, shadowed.interfaces ⟨6⟩ = .ok found ∧
      shadowed.interfaceMembers ⟨6⟩ = .ok entries ∧
      shadowed.EarliestWins (⟨6⟩ :: found) entries) :=
  ⟨(earliestWins_of_sortClasses shadowed_sortClasses rfl).1 rfl,
    (earliestWins_of_sortClasses shadowed_sortClasses rfl).2 rfl⟩

/-- A default is shadowed by the declaration it overrides, both in the table of a class and in that
of an interface. -/
theorem not_mostSpecific_of_sortClasses :
    (¬ ∀ (catalog : Catalog) (sorted : List ClassId) (id : ClassId) (definition : ClassDefinition)
      (found : List ClassId) (entries : List DispatchEntry), catalog.sortClasses = .ok sorted →
        catalog.definition? id = some definition → definition.isInterface = false →
          catalog.interfaces id = .ok found → catalog.members id = .ok entries →
            catalog.MostSpecific found entries) ∧
    (¬ ∀ (catalog : Catalog) (sorted : List ClassId) (id : ClassId) (definition : ClassDefinition)
      (found : List ClassId) (entries : List DispatchEntry), catalog.sortClasses = .ok sorted →
        catalog.definition? id = some definition → definition.isInterface = true →
          catalog.interfaces id = .ok found → catalog.interfaceMembers id = .ok entries →
            catalog.MostSpecific found entries) := by
  have declares : shadowed.Declares ⟨2⟩ "name()" :=
    ⟨⟨⟨"name()", .concrete, some ⟨2⟩, true⟩, ⟨⟨2⟩, 0⟩⟩, List.mem_singleton.mpr rfl, rfl⟩
  constructor
  · intro mostSpecific
    have ofClass := mostSpecific shadowed _ ⟨5⟩ _ [⟨4⟩, ⟨1⟩, ⟨2⟩] _ shadowed_sortClasses rfl rfl rfl
      rfl
    exact ofClass ⟨"name()", ⟨⟨1⟩, 0⟩⟩ (by decide) ⟨2⟩ (by decide) [⟨1⟩] rfl (by decide) declares
  · intro mostSpecific
    have ofInterface := mostSpecific shadowed _ ⟨6⟩ _ [⟨1⟩, ⟨2⟩] _ shadowed_sortClasses rfl rfl rfl
      rfl
    exact ofInterface ⟨"name()", ⟨⟨1⟩, 0⟩⟩ (by decide) ⟨2⟩ (by decide) [⟨1⟩] rfl (by decide)
      declares

end Catalog

end TypeRecords
