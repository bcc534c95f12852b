import TypeRecords.Proofs.Record.SharedHash
import TypeRecords.Record.Adapter

/-!
The method table of an adapter.

Owns where each entry of the table comes from. Three lists are merged by name: the records of the
root class, the members of the interface that have no name among these, and the overrides, of which
the last one of a name stands. Adding members appends the records of the new ones, and replacing
records leaves the names as they are. So looking a name up in the merged records is one search of
the overrides from the back, then of the root's records, then of the members; sorting by hash
changes none of this.
-/

namespace TypeRecords

namespace Catalog

open Outcome FirstOccurrence

variable {catalog : Catalog} {interface : ClassId} {interfaceName : QualifiedName}

/-! ## Adding members -/

theorem addMemberRecord_eq (records : List MethodRecord) (member : DispatchEntry) :
    catalog.addMemberRecord records member =
      if member.name ∈ records.map MethodRecord.name then .ok records
      else (catalog.methodRecord member).map fun record => records ++ [record] := by
  have sameTest : (records.any fun record => record.name = member.name) = true ↔
      member.name ∈ records.map MethodRecord.name := by
    simp
  rw [addMemberRecord]
  by_cases known : member.name ∈ records.map MethodRecord.name
  · rw [if_pos known, if_pos (sameTest.mpr known)]
    rfl
  · rw [if_neg known, if_neg (fun found => known (sameTest.mp found))]
    cases catalog.methodRecord member <;> rfl

/-- Members of distinct names are added where their names are new, in their order. -/
theorem foldlM_addMemberRecord_eq_ok {members : List DispatchEntry}
    (distinct : (members.map DispatchEntry.name).Nodup) {start records : List MethodRecord} :
    members.foldlM catalog.addMemberRecord start = .ok records ↔
      ∃ added, List.Forall₂ catalog.RecordOf
        (members.filter fun member => member.name ∉ start.map MethodRecord.name) added ∧
          start ++ added = records := by
  induction members generalizing start with
  | nil =>
    rw [List.foldlM_nil, pure_eq_ok]
    simp
  | cons member rest inductionHypothesis =>
    rw [List.map_cons, List.nodup_cons] at distinct
    rw [List.foldlM_cons, addMemberRecord_eq]
    by_cases known : member.name ∈ start.map MethodRecord.name
    · rw [if_pos known, ok_bind, inductionHypothesis distinct.2,
        List.filter_cons_of_neg (by simpa using known)]
    · -- The name just added is that of no later member.
      have sameFilter : ∀ record : MethodRecord, record.name = member.name →
          (rest.filter fun other => other.name ∉ (start ++ [record]).map MethodRecord.name) =
            rest.filter fun other => other.name ∉ start.map MethodRecord.name := by
        intro record named
        apply List.filter_congr
        intro other otherMember
        have differs : other.name ≠ member.name :=
          fun same => distinct.1 (same ▸ List.mem_map_of_mem otherMember)
        simp [named, differs]
      rw [if_neg known, bind_eq_ok, List.filter_cons_of_pos (by simpa using known)]
      constructor
      · rintro ⟨middle, made, remaining⟩
        cases recorded : catalog.methodRecord member with
        | error failure =>
          rw [recorded] at made
          cases made
        | ok record =>
          rw [recorded] at made
          cases made
          have isRecord := methodRecord_eq_ok.mp recorded
          obtain ⟨added, pairs, rfl⟩ := (inductionHypothesis distinct.2).mp remaining
          rw [sameFilter record isRecord.name] at pairs
          exact ⟨record :: added, .cons isRecord pairs, by simp⟩
      · rintro ⟨added, pairs, rfl⟩
        cases pairs with
        | @cons _ record _ others isRecord pairs =>
          refine ⟨start ++ [record], by rw [methodRecord_eq_ok.mpr isRecord]; rfl, ?_⟩
          refine (inductionHypothesis distinct.2).mpr ⟨others, ?_, by simp⟩
          rw [sameFilter record isRecord.name]
          exact pairs

/-! ## Replacing records -/

section Replacing

variable {records : List MethodRecord} {added : MethodRecord}

/-- A record takes the place of the first one of its name, or is appended. -/
theorem replaceRecord_cases (records : List MethodRecord) (added : MethodRecord) :
    (added.name ∉ records.map MethodRecord.name ∧
        replaceRecord records added = records ++ [added]) ∨
      ∃ before replaced after, records = before ++ replaced :: after ∧
        replaced.name = added.name ∧ (∀ record ∈ before, record.name ≠ added.name) ∧
          replaceRecord records added = before ++ added :: after := by
  rw [replaceRecord]
  cases searched : records.findIdx? fun record => record.name = added.name with
  | none =>
    refine .inl ⟨?_, rfl⟩
    rw [List.findIdx?_eq_none_iff] at searched
    intro known
    obtain ⟨record, member, named⟩ := List.mem_map.mp known
    simpa [named] using searched record member
  | some index =>
    obtain ⟨inside, named, earlier⟩ := List.findIdx?_eq_some_iff_getElem.mp searched
    refine .inr ⟨records.take index, records[index], records.drop (index + 1), ?_, ?_, ?_, ?_⟩
    · rw [List.cons_getElem_drop_succ, List.take_append_drop]
    · simpa using named
    · intro record member
      obtain ⟨place, placeInside, rfl⟩ := List.mem_take_iff_getElem.mp member
      simpa using earlier place (by omega)
    · exact List.set_eq_take_append_cons_drop.trans (if_pos inside)

theorem names_replaceRecord (known : added.name ∈ records.map MethodRecord.name) :
    (replaceRecord records added).map MethodRecord.name = records.map MethodRecord.name := by
  rcases replaceRecord_cases records added with
    ⟨isNew, _⟩ | ⟨before, replaced, after, rfl, named, _, same⟩
  · exact absurd known isNew
  · rw [same]
    simp [named]

/-- Looking the name of the added record up finds it, and any other name finds what it found
before. -/
theorem find?_replaceRecord (records : List MethodRecord) (added : MethodRecord) (name : String) :
    (replaceRecord records added).find? (fun record => record.name = name) =
      if added.name = name then some added
      else records.find? fun record => record.name = name := by
  rcases replaceRecord_cases records added with
    ⟨isNew, same⟩ | ⟨before, replaced, after, rfl, named, others, same⟩
  · rw [same, List.find?_append]
    by_cases sought : added.name = name
    · have missing : (records.find? fun record => record.name = name) = none := by
        rw [List.find?_eq_none]
        intro record member isNamed
        exact isNew (sought ▸ of_decide_eq_true isNamed ▸ List.mem_map_of_mem member)
      simp [missing, sought]
    · simp [sought]
  · rw [same, List.find?_append, List.find?_append]
    by_cases sought : added.name = name
    · have missing : (before.find? fun record => record.name = name) = none := by
        rw [List.find?_eq_none]
        intro record member isNamed
        exact others record member ((of_decide_eq_true isNamed).trans sought.symm)
      simp [missing, sought]
    · simp [sought, named]

theorem names_foldl_replaceRecord {replacements : List MethodRecord}
    (known : ∀ record ∈ replacements, record.name ∈ records.map MethodRecord.name) :
    (replacements.foldl replaceRecord records).map MethodRecord.name =
      records.map MethodRecord.name := by
  induction replacements using List.reverseRecOn with
  | nil => rfl
  | append_singleton replacements last inductionHypothesis =>
    have earlier := inductionHypothesis fun record member => known record (by simp [member])
    rw [List.foldl_append, List.foldl_cons, List.foldl_nil, names_replaceRecord, earlier]
    rw [earlier]
    exact known last (by simp)

/-- The last replacement of a name is found, and otherwise the record that was there. -/
theorem find?_foldl_replaceRecord (records replacements : List MethodRecord) (name : String) :
    (replacements.foldl replaceRecord records).find? (fun record => record.name = name) =
      (replacements.reverse ++ records).find? fun record => record.name = name := by
  induction replacements using List.reverseRecOn with
  | nil => rfl
  | append_singleton replacements last inductionHypothesis =>
    rw [List.foldl_append, List.foldl_cons, List.foldl_nil, find?_replaceRecord,
      inductionHypothesis, List.reverse_append, List.reverse_singleton, List.singleton_append,
      List.cons_append, List.find?_cons]
    by_cases same : last.name = name <;> simp [same]

/-- Replacing leaves nothing but the replacements and what was there. -/
theorem mem_foldl_replaceRecord {replacements : List MethodRecord} {record : MethodRecord}
    (member : record ∈ replacements.foldl replaceRecord records) :
    record ∈ replacements ∨ record ∈ records := by
  induction replacements using List.reverseRecOn with
  | nil => exact .inr member
  | append_singleton replacements last inductionHypothesis =>
    rw [List.foldl_append, List.foldl_cons, List.foldl_nil] at member
    have known : record = last ∨ record ∈ replacements.foldl replaceRecord records := by
      rcases replaceRecord_cases (replacements.foldl replaceRecord records) last with
        ⟨_, same⟩ | ⟨before, replaced, after, whole, _, _, same⟩
      · rw [same, List.mem_append, List.mem_singleton] at member
        exact member.symm
      · rw [same] at member
        rw [whole]
        simp only [List.mem_append, List.mem_cons] at member ⊢
        tauto
    rcases known with rfl | earlier
    · exact .inl (by simp)
    · exact (inductionHypothesis earlier).imp_left (List.mem_append_left _)

end Replacing

/-! ## Overrides -/

/-- Whether an override stands in for a method that the interface declares itself. -/
def DeclaredOn (catalog : Catalog) (interface : ClassId) (override : Override) : Prop :=
  override.method.owner = interface ∧
    ∃ definition, catalog.method? override.method = some definition

/-- Whether an override stands in for a method of that name. -/
def StandsIn (catalog : Catalog) (name : String) (override : Override) : Prop :=
  ∃ definition, catalog.method? override.method = some definition ∧ definition.name = name

/-- Whether an override is the last one for a name. -/
def LastOverride (catalog : Catalog) (overrides : List Override) (name : String)
    (override : Override) : Prop :=
  ∃ earlier later, overrides = earlier ++ override :: later ∧ catalog.StandsIn name override ∧
    ∀ other ∈ later, ¬ catalog.StandsIn name other

/-- Whether a record is that of an override of the interface. -/
structure OverrideRecord (catalog : Catalog) (interface : ClassId) (override : Override)
    (record : MethodRecord) : Prop where
  owner : override.method.owner = interface
  standsIn : catalog.StandsIn record.name override
  hash : record.hash = NameHash.of record.name
  implementation : record.implementation = override.method
  entryPoint : record.entryPoint = some override.function

theorem OverrideRecord.declaredOn {override : Override} {record : MethodRecord}
    (isRecord : catalog.OverrideRecord interface override record) :
    catalog.DeclaredOn interface override := by
  obtain ⟨definition, found, _⟩ := isRecord.standsIn
  exact ⟨isRecord.owner, definition, found⟩

/-- A method stands for one name. -/
theorem StandsIn.unique {override : Override} {name other : String}
    (standsIn : catalog.StandsIn name override) (again : catalog.StandsIn other override) :
    name = other := by
  obtain ⟨definition, found, rfl⟩ := standsIn
  obtain ⟨same, sameFound, rfl⟩ := again
  cases found.symm.trans sameFound
  rfl

theorem applyOverride_eq_ok {records next : List MethodRecord} {override : Override} :
    catalog.applyOverride interface interfaceName records override = .ok next ↔
      ∃ record, catalog.OverrideRecord interface override record ∧
        replaceRecord records record = next := by
  rw [applyOverride]
  by_cases own : override.method.owner = interface
  · simp only [ne_eq, own, not_true_eq_false, if_false]
    rw [bind_eq_ok]
    constructor
    · rintro ⟨definition, asked, built⟩
      have found := declaredMethod_eq_ok.mp asked
      exact ⟨_, ⟨own, ⟨definition, found, rfl⟩, rfl, rfl, rfl⟩, pure_eq_ok.mp built⟩
    · rintro ⟨⟨hash, name, implementation, entryPoint⟩, isRecord, rfl⟩
      obtain ⟨definition, found, named⟩ := isRecord.standsIn
      refine ⟨definition, declaredMethod_eq_ok.mpr found, ?_⟩
      obtain ⟨_, _, hashed, same, stored⟩ := isRecord
      dsimp only at named hashed same stored
      rw [hashed, same, stored, ← named]
      rfl
  · rw [if_pos own]
    constructor
    · intro succeeded
      cases succeeded
    · rintro ⟨record, isRecord, _⟩
      exact absurd isRecord.owner own

/-- Overrides are applied exactly if each has its record, which then replaces one. -/
theorem foldlM_applyOverride_eq_ok {overrides : List Override}
    {start records : List MethodRecord} :
    overrides.foldlM (catalog.applyOverride interface interfaceName) start = .ok records ↔
      ∃ replacements, List.Forall₂ (catalog.OverrideRecord interface) overrides replacements ∧
        replacements.foldl replaceRecord start = records := by
  induction overrides generalizing start with
  | nil =>
    rw [List.foldlM_nil, pure_eq_ok]
    simp
  | cons override rest inductionHypothesis =>
    rw [List.foldlM_cons, bind_eq_ok]
    constructor
    · rintro ⟨middle, applied, remaining⟩
      obtain ⟨record, isRecord, rfl⟩ := applyOverride_eq_ok.mp applied
      obtain ⟨replacements, pairs, same⟩ := inductionHypothesis.mp remaining
      exact ⟨record :: replacements, .cons isRecord pairs, same⟩
    · rintro ⟨replacements, pairs, same⟩
      cases pairs with
      | cons isRecord pairs =>
        exact ⟨_, applyOverride_eq_ok.mpr ⟨_, isRecord, rfl⟩,
          inductionHypothesis.mpr ⟨_, pairs, same⟩⟩

/-- The last replacement of a name is that of the last override for it. -/
theorem lastOverride_of_find? {overrides : List Override} {replacements : List MethodRecord}
    (pairs : List.Forall₂ (catalog.OverrideRecord interface) overrides replacements)
    {name : String} {record : MethodRecord}
    (found : replacements.reverse.find? (fun other => other.name = name) = some record) :
    ∃ override, catalog.LastOverride overrides name override ∧
      record.entryPoint = some override.function := by
  have named : record.name = name := by simpa using List.find?_some found
  obtain ⟨before, override, after, split, isRecord, passed⟩ :=
    exists_split_of_find? (List.forall₂_reverse_iff.mpr pairs) found
  refine ⟨override, ⟨after.reverse, before.reverse, ?_, named ▸ isRecord.standsIn, ?_⟩,
    isRecord.entryPoint⟩
  · rw [← List.reverse_reverse overrides, split]
    simp
  · intro other member standsIn
    obtain ⟨otherRecord, isOther, differs⟩ := passed other (List.mem_reverse.mp member)
    exact of_decide_eq_false differs (isOther.standsIn.unique standsIn)

/-- Where no replacement has a name, no override is for it. -/
theorem not_standsIn_of_find?_eq_none {overrides : List Override}
    {replacements : List MethodRecord}
    (pairs : List.Forall₂ (catalog.OverrideRecord interface) overrides replacements)
    {name : String} (absent : replacements.reverse.find? (fun other => other.name = name) = none) :
    ∀ override ∈ overrides, ¬ catalog.StandsIn name override := by
  intro override member standsIn
  obtain ⟨record, recordMember, isRecord⟩ := exists_item_of_mem pairs.flip member
  have differs := List.find?_eq_none.mp absent record (List.mem_reverse.mpr recordMember)
  exact differs (decide_eq_true (isRecord.standsIn.unique standsIn))

/-! ## The merged table -/

theorem declares_of_method? {method : MethodRef} {definition : MethodDefinition}
    (found : catalog.method? method = some definition) :
    catalog.Declares method.owner definition.name := by
  obtain ⟨owner, defined, located⟩ := Option.bind_eq_some_iff.mp found
  refine ⟨⟨definition, method⟩, ?_, rfl⟩
  rw [declarations, defined]
  have numbered := List.mk_mem_zipIdx_iff_getElem?.mpr located
  exact List.mem_map.mpr ⟨(definition, method.index), numbered, rfl⟩

/-- Every record of a method table has the hash of its name. -/
theorem hash_of_mem_methodTable {id : ClassId} {table : List MethodRecord}
    (tabled : catalog.methodTable id = .ok table) {record : MethodRecord}
    (member : record ∈ table) : record.hash = NameHash.of record.name := by
  obtain ⟨definition, _, rest⟩ := bind_eq_ok.mp tabled
  split_ifs at rest with isAbstract
  · cases pure_eq_ok.mp rest
    cases member
  · obtain ⟨entries, _, rest⟩ := bind_eq_ok.mp rest
    obtain ⟨records, recorded, distinct⟩ := bind_eq_ok.mp rest
    have listed := (sortDistinct_perm distinct).mem_iff.mp member
    obtain ⟨entry, _, made⟩ := exists_item_of_mem (mapM_eq_ok.mp recorded) listed
    have isRecord := methodRecord_eq_ok.mp made
    rw [isRecord.hash, isRecord.name]

/-- Where the function under a name comes from: the last override for it, otherwise the root's
record of the name, otherwise the member of the interface, which has none while it is abstract. -/
inductive AdapterEntry (catalog : Catalog) (overrides : List Override)
    (rootTable : List MethodRecord) (members : List DispatchEntry) (name : String) :
    Option FunctionId → Prop
  | overridden {override : Override} (last : catalog.LastOverride overrides name override) :
      AdapterEntry catalog overrides rootTable members name (some override.function)
  | ofRoot {record : MethodRecord}
      (unchanged : ∀ override ∈ overrides, ¬ catalog.StandsIn name override)
      (member : record ∈ rootTable) (named : record.name = name) :
      AdapterEntry catalog overrides rootTable members name record.entryPoint
  | ofInterface {entry : DispatchEntry} {definition : MethodDefinition}
      (unchanged : ∀ override ∈ overrides, ¬ catalog.StandsIn name override)
      (isNew : name ∉ rootTable.map MethodRecord.name) (member : entry ∈ members)
      (named : entry.name = name)
      (declared : catalog.method? entry.implementation = some definition)
      (reachable : definition.implementation ≠ .abstract → definition.function ≠ none) :
      AdapterEntry catalog overrides rootTable members name
        (if definition.implementation = .abstract then none else definition.function)

/-- The method table of an adapter, by the tables of the root class and of the interface. -/
structure AdapterTable (catalog : Catalog) (overrides : List Override)
    (rootTable : List MethodRecord) (members : List DispatchEntry) (methods : List MethodRecord) :
    Prop where
  ascending : MethodRecord.Ascending methods
  hashes : ∀ record ∈ methods, record.hash = NameHash.of record.name
  names : (methods.map MethodRecord.name).Nodup
  mem_names : ∀ name, name ∈ methods.map MethodRecord.name ↔
    name ∈ rootTable.map MethodRecord.name ∨ name ∈ members.map DispatchEntry.name
  source : ∀ record ∈ methods,
    catalog.AdapterEntry overrides rootTable members record.name record.entryPoint

section Merged

variable {sorted : List ClassId} {overrides : List Override}
  {rootTable added replacements methods : List MethodRecord} {members : List DispatchEntry}

theorem adapterMethods_eq_ok (rootTabled : catalog.methodTable ClassId.root = .ok rootTable)
    (answered : catalog.interfaceMembers interface = .ok members)
    (distinct : (members.map DispatchEntry.name).Nodup) :
    catalog.adapterMethods interface interfaceName overrides = .ok methods ↔
      ∃ added replacements, List.Forall₂ catalog.RecordOf
          (members.filter fun member => member.name ∉ rootTable.map MethodRecord.name) added ∧
        List.Forall₂ (catalog.OverrideRecord interface) overrides replacements ∧
        catalog.sortDistinct interfaceName
          (replacements.foldl replaceRecord (rootTable ++ added)) = .ok methods := by
  rw [adapterMethods, rootTabled, ok_bind, answered]
  change (members.foldlM catalog.addMemberRecord rootTable >>= _) = _ ↔ _
  simp only [bind_eq_ok, foldlM_addMemberRecord_eq_ok distinct, foldlM_applyOverride_eq_ok]
  constructor
  · rintro ⟨_, ⟨added, pairs, rfl⟩, _, ⟨replacements, replaced, rfl⟩, built⟩
    exact ⟨added, replacements, pairs, replaced, built⟩
  · rintro ⟨added, replacements, pairs, replaced, built⟩
    exact ⟨_, ⟨added, pairs, rfl⟩, _, ⟨replacements, replaced, rfl⟩, built⟩

/-- The names of the root's records and of the members added to them. -/
theorem mem_names_added (pairs : List.Forall₂ catalog.RecordOf
      (members.filter fun member => member.name ∉ rootTable.map MethodRecord.name) added)
    (name : String) : name ∈ (rootTable ++ added).map MethodRecord.name ↔
      name ∈ rootTable.map MethodRecord.name ∨ name ∈ members.map DispatchEntry.name := by
  rw [List.map_append, List.mem_append, names_eq_of_recordOf pairs]
  by_cases known : name ∈ rootTable.map MethodRecord.name
  · simp [known]
  · rw [or_iff_right known, or_iff_right known, List.mem_map, List.mem_map]
    constructor
    · rintro ⟨entry, member, named⟩
      exact ⟨entry, (List.mem_filter.mp member).1, named⟩
    · rintro ⟨entry, member, named⟩
      exact ⟨entry, List.mem_filter.mpr ⟨member, by simpa [named] using known⟩, named⟩

/-- A record that stands in the merged list was put there by the last list to have its name. -/
theorem adapterEntry_of_find? (pairs : List.Forall₂ catalog.RecordOf
      (members.filter fun member => member.name ∉ rootTable.map MethodRecord.name) added)
    (replaced : List.Forall₂ (catalog.OverrideRecord interface) overrides replacements)
    {name : String} {record : MethodRecord}
    (found : (replacements.reverse ++ (rootTable ++ added)).find? (fun other => other.name = name) =
      some record) :
    catalog.AdapterEntry overrides rootTable members name record.entryPoint := by
  rw [List.find?_append] at found
  cases overridden : replacements.reverse.find? fun other => other.name = name with
  | some replacement =>
    rw [overridden, Option.some_or, Option.some.injEq] at found
    obtain ⟨override, last, stored⟩ := lastOverride_of_find? replaced overridden
    rw [← found, stored]
    exact .overridden last
  | none =>
    have unchanged := not_standsIn_of_find?_eq_none replaced overridden
    rw [overridden, Option.none_or] at found
    have named : record.name = name := by simpa using List.find?_some found
    rcases List.mem_append.mp (List.mem_of_find?_eq_some found) with ofRoot | ofMember
    · exact .ofRoot unchanged ofRoot named
    · obtain ⟨entry, listed, isRecord⟩ := exists_item_of_mem pairs ofMember
      obtain ⟨member, isNew⟩ := List.mem_filter.mp listed
      have sameName : entry.name = name := isRecord.name.symm.trans named
      obtain ⟨definition, asked, _⟩ := bind_eq_ok.mp isRecord.entryPoint
      have declared := declaredMethod_eq_ok.mp asked
      have isOfInterface := AdapterEntry.ofInterface unchanged
        (sameName ▸ of_decide_eq_true isNew) member sameName declared
      rcases (entryPoint_eq_ok declared).mp isRecord.entryPoint with
        ⟨isAbstract, absent⟩ | ⟨isConcrete, stored, present⟩
      · rw [if_pos isAbstract, ← absent] at isOfInterface
        exact isOfInterface (absurd isAbstract)
      · rw [if_neg isConcrete, ← stored] at isOfInterface
        exact isOfInterface fun _ => present

/-- The method table of an adapter is merged from those of the root class and of the interface. -/
theorem adapterTable_of_adapterMethods (graph : catalog.SoundGraph)
    (order : catalog.ClassOrder sorted) (isInterface : catalog.IsInterface interface)
    (rootTabled : catalog.methodTable ClassId.root = .ok rootTable)
    (answered : catalog.interfaceMembers interface = .ok members)
    (built : catalog.adapterMethods interface interfaceName overrides = .ok methods) :
    catalog.AdapterTable overrides rootTable members methods := by
  obtain ⟨definition, defined, interfaceKind⟩ := isInterface
  have memberTable := interfaceMembers_eq graph order defined interfaceKind
  rw [answered, Except.ok.injEq] at memberTable
  have memberNames : members.map DispatchEntry.name =
      ((catalog.expansion interface).flatMap catalog.ownNames).eraseDups := by
    rw [memberTable, names_interfaceTable]
  have distinct : (members.map DispatchEntry.name).Nodup := memberNames ▸ nodup_eraseDups _
  obtain ⟨added, replacements, pairs, replaced, sorting⟩ :=
    (adapterMethods_eq_ok rootTabled answered distinct).mp built
  have perm := sortDistinct_perm sorting
  have ascending := ascending_of_sortDistinct sorting
  have hashes : ∀ record ∈ methods, record.hash = NameHash.of record.name := by
    intro record member
    rcases mem_foldl_replaceRecord (perm.mem_iff.mp member) with override | earlier
    · obtain ⟨_, _, isRecord⟩ := exists_item_of_mem replaced override
      exact isRecord.hash
    · rcases List.mem_append.mp earlier with ofRoot | ofMember
      · exact hash_of_mem_methodTable rootTabled ofRoot
      · obtain ⟨entry, _, isRecord⟩ := exists_item_of_mem pairs ofMember
        rw [isRecord.hash, isRecord.name]
  have names : (methods.map MethodRecord.name).Nodup := by
    have sameHashes : methods.map MethodRecord.hash =
        (methods.map MethodRecord.name).map NameHash.of := by
      rw [List.map_map]
      exact List.map_congr_left hashes
    exact List.Nodup.of_map _ (sameHashes ▸ ascending.nodup_hashes)
  -- Every override is for a name that the interface declares, so none adds a name.
  have known : ∀ record ∈ replacements,
      record.name ∈ (rootTable ++ added).map MethodRecord.name := by
    intro record member
    obtain ⟨override, _, isRecord⟩ := exists_item_of_mem replaced member
    obtain ⟨method, found, named⟩ := isRecord.standsIn
    have declares := declares_of_method? found
    rw [isRecord.owner, named] at declares
    rw [mem_names_added pairs, memberNames, List.mem_eraseDups, List.mem_flatMap]
    exact .inr ⟨interface, mem_expansion_self graph order ⟨definition, defined⟩,
      mem_ownNames.mpr declares⟩
  refine ⟨ascending, hashes, names, fun name => ?_, fun record member => ?_⟩
  · rw [(perm.map MethodRecord.name).mem_iff, names_foldl_replaceRecord known,
      mem_names_added pairs]
  · have mergedNames := (perm.map MethodRecord.name).nodup_iff.mp names
    have found := filter_name_eq_singleton mergedNames (perm.mem_iff.mp member)
    have located := congrArg List.head? found
    rw [List.head?_filter, List.head?_cons, find?_foldl_replaceRecord] at located
    exact adapterEntry_of_find? pairs replaced located

/-- Where an adapter has a method table, its interface answers for its members, and all overrides
are declared on it. -/
theorem exists_adapterTable (graph : catalog.SoundGraph) (order : catalog.ClassOrder sorted)
    (isInterface : catalog.IsInterface interface)
    (built : catalog.adapterMethods interface interfaceName overrides = .ok methods) :
    (∀ override ∈ overrides, catalog.DeclaredOn interface override) ∧
      ∃ rootTable members, catalog.methodTable ClassId.root = .ok rootTable ∧
        catalog.interfaceMembers interface = .ok members ∧
        catalog.AdapterTable overrides rootTable members methods := by
  obtain ⟨rootTable, rootTabled, rest⟩ := bind_eq_ok.mp built
  obtain ⟨members, asked, rest⟩ := bind_eq_ok.mp rest
  obtain ⟨_, _, rest⟩ := bind_eq_ok.mp rest
  obtain ⟨_, applied, _⟩ := bind_eq_ok.mp rest
  obtain ⟨replacements, replaced, _⟩ := foldlM_applyOverride_eq_ok.mp applied
  have answered := Generator.lift_eq_ok.mp asked
  refine ⟨fun override member => ?_, rootTable, members, rootTabled, answered,
    adapterTable_of_adapterMethods graph order isInterface rootTabled answered built⟩
  obtain ⟨_, _, isRecord⟩ := exists_item_of_mem replaced.flip member
  exact isRecord.declaredOn

end Merged

/-- A root class with a method, an interface that asks for a method of that name and for another,
and an interface below it with an abstract method and a default. -/
def callback : Catalog where
  classes := .ofList [
    (ClassId.root, .defined {
      name := rootName
      kind := .proper
      modality := .inheritable
      scope := .topLevel
      superclass := none
      interfaces := []
      fields := []
      methods := [⟨"toString()", .concrete, some ⟨1⟩, true⟩]
      exportSymbol := none }),
    (⟨1⟩, .defined {
      name := ⟨["demo", "Task"]⟩
      kind := .interface
      modality := .abstract
      scope := .topLevel
      superclass := none
      interfaces := []
      fields := []
      methods := [⟨"run()", .abstract, none, true⟩, ⟨"toString()", .abstract, none, true⟩]
      exportSymbol := none }),
    (⟨2⟩, .defined {
      name := ⟨["demo", "Callback"]⟩
      kind := .interface
      modality := .abstract
      scope := .topLevel
      superclass := none
      interfaces := [⟨1⟩]
      fields := []
      methods := [⟨"call()", .abstract, none, true⟩, ⟨"log()", .concrete, some ⟨2⟩, true⟩]
      exportSymbol := none })]
  functions := .empty
  valueBoxes := .empty

/-- Two functions for one method, of which the second stands. -/
def callbackOverrides : List Override := [⟨⟨⟨2⟩, 0⟩, ⟨7⟩⟩, ⟨⟨⟨2⟩, 0⟩, ⟨8⟩⟩]

/-- The last hash is the greatest as an unsigned word, and would be the least as a signed one. -/
def callbackMethods : List MethodRecord := [
  ⟨NameHash.of "toString()", "toString()", ⟨ClassId.root, 0⟩, some ⟨1⟩⟩,
  ⟨NameHash.of "log()", "log()", ⟨⟨2⟩, 1⟩, some ⟨2⟩⟩,
  ⟨NameHash.of "run()", "run()", ⟨⟨1⟩, 0⟩, none⟩,
  ⟨NameHash.of "call()", "call()", ⟨⟨2⟩, 0⟩, some ⟨8⟩⟩]

theorem callback_adapterMethods :
    callback.adapterMethods ⟨2⟩ ⟨["demo", "Callback"]⟩ callbackOverrides = .ok callbackMethods := by
  have rootTabled : callback.methodTable ClassId.root = .ok
      [⟨NameHash.of "toString()", "toString()", ⟨ClassId.root, 0⟩, some ⟨1⟩⟩] := by
    decide +kernel
  have answered : callback.interfaceMembers ⟨2⟩ = .ok [⟨"call()", ⟨⟨2⟩, 0⟩⟩,
      ⟨"log()", ⟨⟨2⟩, 1⟩⟩, ⟨"run()", ⟨⟨1⟩, 0⟩⟩, ⟨"toString()", ⟨⟨1⟩, 1⟩⟩] := rfl
  refine (adapterMethods_eq_ok rootTabled answered (by decide)).mpr
    ⟨[⟨NameHash.of "call()", "call()", ⟨⟨2⟩, 0⟩, none⟩,
        ⟨NameHash.of "log()", "log()", ⟨⟨2⟩, 1⟩, some ⟨2⟩⟩,
        ⟨NameHash.of "run()", "run()", ⟨⟨1⟩, 0⟩, none⟩],
      [⟨NameHash.of "call()", "call()", ⟨⟨2⟩, 0⟩, some ⟨7⟩⟩,
        ⟨NameHash.of "call()", "call()", ⟨⟨2⟩, 0⟩, some ⟨8⟩⟩], ?_, ?_,
      sortDistinct_eq_ok_iff.mpr ⟨?_, ?_⟩⟩
  · exact .cons ⟨rfl, rfl, rfl, rfl⟩ (.cons ⟨rfl, rfl, rfl, rfl⟩ (.cons ⟨rfl, rfl, rfl, rfl⟩ .nil))
  · exact .cons ⟨rfl, ⟨_, rfl, rfl⟩, rfl, rfl, rfl⟩ (.cons ⟨rfl, ⟨_, rfl, rfl⟩, rfl, rfl, rfl⟩ .nil)
  · decide +kernel
  · unfold MethodRecord.Ascending
    decide +kernel

end Catalog

end TypeRecords
