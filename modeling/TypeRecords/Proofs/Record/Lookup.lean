import TypeRecords.Proofs.Record.Instance
import TypeRecords.Proofs.Record.SharedHash

/-!
Lookup by hash.

Owns what the binary search finds in the two tables of a class. The search trusts the order of a
table: it discards a half without looking into it. In a table in ascending order with distinct
hashes it finds the one item with a hash, and nothing under any other. Both tables are such, so each
declared field leads to its own offset and each member to its own record, whatever order the hashes
give them.
-/

namespace TypeRecords

/-! ## Searching -/

section Searching

variable {α : Type} {hashOf : α → NameHash} {hash : NameHash} {table : List α} {item : α}

/-- What is found has the hash, in whatever order the table is. -/
theorem mem_of_searchByHash (found : searchByHash hashOf hash table = some item) :
    item ∈ table ∧ hashOf item = hash := by
  fun_induction searchByHash hashOf hash table with
  | case1 table short =>
    exact ⟨List.mem_of_find?_eq_some found, by simpa using List.find?_some found⟩
  | case2 table long back keeps inductionHypothesis =>
    obtain ⟨member, sameHash⟩ := inductionHypothesis found
    exact ⟨List.mem_of_mem_drop member, sameHash⟩
  | case3 table long front back discards inductionHypothesis =>
    obtain ⟨member, sameHash⟩ := inductionHypothesis found
    exact ⟨List.mem_of_mem_take member, sameHash⟩

/-- Where the second half does not begin beyond a hash, an item in front of it with the hash is not
the only one: it and the first of the second half are in order. -/
theorem InHashOrder.exists_mem_back {front back : List α}
    (inOrder : InHashOrder hashOf (front ++ back))
    (within : (back.head?.any fun middle => (hashOf middle).atMost hash) = true)
    (member : item ∈ front ++ back) (isHash : hashOf item = hash) :
    ∃ kept ∈ back, hashOf kept = hash := by
  rcases List.mem_append.mp member with inFront | inBack
  · cases back with
    | nil => cases within
    | cons middle later =>
      have below : (hashOf item).atMost (hashOf middle) = true :=
        (List.pairwise_append.mp inOrder).2.2 item inFront middle List.mem_cons_self
      rw [isHash] at below
      exact ⟨middle, List.mem_cons_self, NameHash.eq_of_atMost within below⟩
  · exact ⟨item, inBack, isHash⟩

/-- Where the second half begins beyond a hash, no item of it has the hash. -/
theorem InHashOrder.mem_front {front back : List α} (inOrder : InHashOrder hashOf (front ++ back))
    (beyond : (back.head?.any fun middle => (hashOf middle).atMost hash) = false)
    (member : item ∈ front ++ back) (isHash : hashOf item = hash) : item ∈ front := by
  refine (List.mem_append.mp member).resolve_right fun inBack => ?_
  cases back with
  | nil => cases inBack
  | cons middle later =>
    have below : (hashOf middle).atMost (hashOf item) = true := by
      rcases List.mem_cons.mp inBack with rfl | inLater
      · exact NameHash.atMost_refl _
      · exact (List.pairwise_cons.mp (List.pairwise_append.mp inOrder).2.1).1 item inLater
    rw [isHash] at below
    exact absurd below (Bool.eq_false_iff.mp beyond)

/-- In ascending order a hash that is there is found: the half that is kept has it too. -/
theorem exists_searchByHash (inOrder : InHashOrder hashOf table) (member : item ∈ table)
    (isHash : hashOf item = hash) : ∃ found, searchByHash hashOf hash table = some found := by
  fun_induction searchByHash hashOf hash table generalizing item with
  | case1 table short =>
    rw [← Option.isSome_iff_exists, List.find?_isSome]
    exact ⟨item, member, decide_eq_true isHash⟩
  | case2 table long back keeps =>
    rename_i inductionHypothesis
    rw [← List.take_append_drop (table.length / 2) table] at inOrder member
    obtain ⟨kept, keptMember, keptHash⟩ := inOrder.exists_mem_back keeps member isHash
    exact inductionHypothesis (List.pairwise_append.mp inOrder).2.1 keptMember keptHash
  | case3 table long front back discards =>
    rename_i inductionHypothesis
    rw [← List.take_append_drop (table.length / 2) table] at inOrder member
    have inFront := inOrder.mem_front (Bool.eq_false_iff.mpr discards) member isHash
    exact inductionHypothesis (List.pairwise_append.mp inOrder).1 inFront isHash

/-- In ascending order with distinct hashes, the search finds the item with a hash. -/
theorem searchByHash_eq_some_iff (inOrder : InHashOrder hashOf table)
    (distinct : (table.map hashOf).Nodup) :
    searchByHash hashOf hash table = some item ↔ item ∈ table ∧ hashOf item = hash := by
  constructor
  · exact mem_of_searchByHash
  · rintro ⟨member, isHash⟩
    obtain ⟨found, searched⟩ := exists_searchByHash inOrder member isHash
    obtain ⟨foundMember, foundHash⟩ := mem_of_searchByHash searched
    have sameHash : hashOf found = hashOf item := foundHash.trans isHash.symm
    rw [searched, List.inj_on_of_nodup_map distinct foundMember member sameHash]

theorem searchByHash_eq_none (absent : hash ∉ table.map hashOf) :
    searchByHash hashOf hash table = none := by
  rw [Option.eq_none_iff_forall_ne_some]
  intro item found
  obtain ⟨member, rfl⟩ := mem_of_searchByHash found
  exact absent (List.mem_map_of_mem member)

end Searching

/-! ## Fields -/

namespace ClassDefinition

variable {definition : ClassDefinition}

/-- The hashes of the qualified names of the fields a class declares. -/
def fieldHashes (definition : ClassDefinition) : List NameHash :=
  definition.fields.map fun field => NameHash.of (definition.name.child field.name).display

theorem getElem?_fieldHashes {place : Nat} {name : QualifiedName}
    (named : definition.qualifiedFieldName? place = some name) :
    definition.fieldHashes[place]? = some (NameHash.of name.display) := by
  rw [qualifiedFieldName?, Option.map_eq_some_iff] at named
  obtain ⟨field, located, rfl⟩ := named
  rw [fieldHashes, List.getElem?_map, located]
  rfl

end ClassDefinition

/-- Items joined with those at their places in another list. -/
theorem filterMap_zipIdx_getElem? {α β γ : Type} (items : List α) (others : List β)
    (join : α → β → γ) :
    (items.zipIdx.filterMap fun (item, index) => others[index]?.map (join item)) =
      (items.zip others).map fun pair => join pair.1 pair.2 := by
  induction items generalizing others with
  | nil => rfl
  | cons item rest inductionHypothesis =>
    rw [List.zipIdx_cons, Nat.zero_add]
    cases others with
    | nil => simp
    | cons other others =>
      rw [List.zipIdx_succ, List.filterMap_cons, List.filterMap_map, List.zip_cons_cons,
        List.map_cons, ← inductionHypothesis others]
      rfl

section Fields

variable {definition : ClassDefinition} {layout : InstanceLayout}

/-- The field table has the hashes and the offsets of the declared fields side by side, sorted. -/
theorem fieldTable_eq (definition : ClassDefinition) (layout : InstanceLayout) :
    fieldTable definition layout =
      ((layout.fieldOffsets.zip definition.fieldHashes).map fun pair =>
        (⟨pair.2, pair.1⟩ : FieldRecord)).mergeSort
          fun left right => left.hash.atMost right.hash := by
  have joined := filterMap_zipIdx_getElem? layout.fieldOffsets definition.fieldHashes
    fun offset hash => (⟨hash, offset⟩ : FieldRecord)
  rw [fieldTable, ← joined]
  simp only [ClassDefinition.qualifiedFieldName?, ClassDefinition.fieldHashes, List.getElem?_map,
    Option.map_map]
  rfl

theorem inHashOrder_fieldTable (definition : ClassDefinition) (layout : InstanceLayout) :
    InHashOrder FieldRecord.hash (fieldTable definition layout) := by
  rw [fieldTable_eq]
  exact inHashOrder_mergeSort FieldRecord.hash _

theorem mem_fieldTable {record : FieldRecord} :
    record ∈ fieldTable definition layout ↔
      (record.offset, record.hash) ∈ layout.fieldOffsets.zip definition.fieldHashes := by
  rw [fieldTable_eq, List.mem_mergeSort, List.mem_map]
  constructor
  · rintro ⟨pair, listed, rfl⟩
    exact listed
  · intro listed
    exact ⟨_, listed, rfl⟩

theorem perm_hashes_fieldTable (complete : layout.fieldOffsets.length = definition.fields.length) :
    ((fieldTable definition layout).map FieldRecord.hash).Perm definition.fieldHashes := by
  rw [fieldTable_eq]
  refine ((List.mergeSort_perm _ _).map FieldRecord.hash).trans ?_
  have hashes : (layout.fieldOffsets.zip definition.fieldHashes).map Prod.snd =
      definition.fieldHashes :=
    List.map_snd_zip (by rw [ClassDefinition.fieldHashes, List.length_map, complete])
  rw [List.map_map, Function.comp_def, hashes]

/-- Whether the search in the field table of a class answers for the fields it declares, and for no
other. -/
structure FieldsFound (definition : ClassDefinition) (layout : InstanceLayout) : Prop where
  complete : layout.fieldOffsets.length = definition.fields.length
  declared : ∀ {place : Nat} {name : QualifiedName},
    definition.qualifiedFieldName? place = some name →
    ∃ offset, layout.fieldOffsets[place]? = some offset ∧
      FieldRecord.lookup? (fieldTable definition layout) (NameHash.of name.display) = some offset
  others : ∀ {hash : NameHash}, hash ∉ definition.fieldHashes →
    FieldRecord.lookup? (fieldTable definition layout) hash = none

theorem fieldsFound (complete : layout.fieldOffsets.length = definition.fields.length)
    (distinct : definition.fieldHashes.Nodup) : FieldsFound definition layout := by
  have perm := perm_hashes_fieldTable complete
  have inOrder := inHashOrder_fieldTable definition layout
  refine ⟨complete, ?_, ?_⟩
  · intro place name named
    have hashed := definition.getElem?_fieldHashes named
    obtain ⟨short, _⟩ := List.getElem?_eq_some_iff.mp hashed
    rw [ClassDefinition.fieldHashes, List.length_map, ← complete] at short
    have offset := List.getElem?_eq_getElem short
    refine ⟨_, offset, ?_⟩
    have listed : (layout.fieldOffsets[place], NameHash.of name.display) ∈
        layout.fieldOffsets.zip definition.fieldHashes :=
      List.mem_of_getElem? (List.getElem?_zip_eq_some.mpr ⟨offset, hashed⟩)
    have member : ⟨NameHash.of name.display, layout.fieldOffsets[place]⟩ ∈
        fieldTable definition layout := mem_fieldTable.mpr listed
    have found := (searchByHash_eq_some_iff inOrder (perm.nodup_iff.mpr distinct)).mpr
      ⟨member, rfl⟩
    rw [FieldRecord.lookup?, found]
    rfl
  · intro hash absent
    rw [FieldRecord.lookup?, searchByHash_eq_none fun present => absent (perm.mem_iff.mp present)]
    rfl

end Fields

namespace Catalog

open Outcome

variable {catalog : Catalog} {sorted : List ClassId} {id : ClassId} {definition : ClassDefinition}

/-- A layout has an offset for every field the class declares. -/
theorem length_fieldOffsets (graph : catalog.SoundGraph) (order : catalog.ClassOrder sorted)
    (defined : catalog.definition? id = some definition) {target : Target} {layout : InstanceLayout}
    (laidOut : catalog.instanceLayout target id = .ok layout) :
    layout.fieldOffsets.length = definition.fields.length := by
  obtain ⟨chain, ancestry⟩ := exists_ancestry graph order ⟨definition, defined⟩
  obtain ⟨inherited, split⟩ := ancestry.exists_inherited defined
  have fields := instanceFields_eq_fieldsAlong graph ancestry
  rw [split] at fields
  rw [instanceLayout] at laidOut
  obtain ⟨same, asked, rest⟩ := bind_eq_ok.mp laidOut
  obtain rfl := Option.some.inj
    ((definition_eq_ok.mp (Generator.lift_eq_ok.mp asked)).symm.trans defined)
  obtain ⟨_, _, rest⟩ := bind_eq_ok.mp rest
  obtain ⟨all, answered, rest⟩ := bind_eq_ok.mp rest
  obtain rfl := Except.ok.inj ((Generator.lift_eq_ok.mp answered).symm.trans fields)
  obtain ⟨body, built, made⟩ := bind_eq_ok.mp rest
  rw [← pure_eq_ok.mp made]
  have length := StructLayout.length_offsets_of_buildFrom (Generator.lift_eq_ok.mp built)
  simp only [List.length_drop, List.length_map, length, List.length_cons, List.length_append]
  omega

/-! ## Methods -/

/-- Whether the search in a method table answers with the records of the members, and under no other
hash. -/
structure MethodsFound (catalog : Catalog) (entries : List DispatchEntry)
    (table : List MethodRecord) : Prop where
  members : ∀ entry ∈ entries, ∃ record,
    MethodRecord.lookup? table (NameHash.of entry.name) = some record ∧
      catalog.RecordOf entry record
  others : ∀ {hash : NameHash}, hash ∉ entries.map memberHash →
    MethodRecord.lookup? table hash = none

theorem methodsFound {entries : List DispatchEntry} {records table : List MethodRecord}
    {className : QualifiedName} (pairs : List.Forall₂ catalog.RecordOf entries records)
    (distinct : catalog.sortDistinct className records = .ok table) :
    catalog.MethodsFound entries table := by
  obtain ⟨perm, ascending⟩ := sortDistinct_eq_ok_iff.mp distinct
  have inOrder : InHashOrder MethodRecord.hash table :=
    ascending.imp fun below => NameHash.atMost_iff.mpr (UInt64.le_of_lt below)
  have hashes : (table.map MethodRecord.hash).Perm (entries.map memberHash) := by
    have sameHashes : entries.map memberHash = records.map MethodRecord.hash :=
      map_eq_map_of_forall₂ pairs fun _ _ isRecord => isRecord.hash.symm
    rw [sameHashes]
    exact perm.map MethodRecord.hash
  refine ⟨fun entry member => ?_, fun {hash} absent => ?_⟩
  · obtain ⟨record, recorded, isRecord⟩ := exists_recordOf_of_mem pairs member
    exact ⟨record, (searchByHash_eq_some_iff inOrder ascending.nodup_hashes).mpr
      ⟨perm.mem_iff.mpr recorded, isRecord.hash⟩, isRecord⟩
  · exact searchByHash_eq_none fun present => absent (hashes.mem_iff.mp present)

/-! ## Main result -/

/-- In an accepted graph, the search in the tables of a class finds every field it declares with the
offset of its layout and every member with its record, and finds nothing else. -/
theorem lookup_of_sortClasses {catalog : Catalog} {sorted : List ClassId}
    (accepted : catalog.sortClasses = .ok sorted) {id : ClassId} {definition : ClassDefinition}
    (defined : catalog.definition? id = some definition) :
    (∀ target layout, catalog.instanceLayout target id = .ok layout →
      definition.fieldHashes.Nodup → FieldsFound definition layout) ∧
    ∀ table, definition.isAbstract = false → catalog.methodTable id = .ok table →
      ∃ entries, catalog.members id = .ok entries ∧ catalog.MethodsFound entries table := by
  have graph := soundGraph_of_sortClasses accepted
  have order := classOrder_of_sortClasses accepted
  refine ⟨fun target layout laidOut distinct => ?_, fun table isConcrete tabled => ?_⟩
  · exact fieldsFound (length_fieldOffsets graph order defined laidOut) distinct
  · obtain ⟨entries, answered⟩ := exists_members graph order ⟨definition, defined⟩
    obtain ⟨records, pairs, distinct⟩ := (methodTable_eq_ok defined isConcrete answered).mp tabled
    exact ⟨entries, answered, methodsFound pairs distinct⟩

/-- A class whose fields and methods are declared in another order than that of their hashes. -/
def linkedNodes : Catalog where
  classes := .ofList [
    (ClassId.root, .defined {
      name := rootName
      kind := .proper
      modality := .inheritable
      scope := .topLevel
      superclass := none
      interfaces := []
      fields := []
      methods := [⟨"toString()", .concrete, some ⟨1⟩, true⟩]
      exportSymbol := none }),
    (⟨1⟩, .defined {
      name := ⟨["demo", "Node"]⟩
      kind := .proper
      modality := .final
      scope := .topLevel
      superclass := none
      interfaces := []
      fields := [⟨"flag", .bool⟩, ⟨"value", .i64⟩, ⟨"next", .any⟩]
      methods := [⟨"value()", .external, some ⟨2⟩, true⟩, ⟨"append()", .concrete, some ⟨3⟩, true⟩]
      exportSymbol := none })]
  functions := .empty
  valueBoxes := .empty

theorem linkedNodes_sortClasses : linkedNodes.sortClasses = .ok [ClassId.root, ⟨1⟩] := by
  cbv

theorem linkedNodes_methodTable :
    linkedNodes.methodTable ⟨1⟩ = .ok [
      ⟨NameHash.of "toString()", "toString()", ⟨⟨0⟩, 0⟩, some ⟨1⟩⟩,
      ⟨NameHash.of "append()", "append()", ⟨⟨1⟩, 1⟩, some ⟨3⟩⟩,
      ⟨NameHash.of "value()", "value()", ⟨⟨1⟩, 0⟩, some ⟨2⟩⟩] := by
  have members : linkedNodes.members ⟨1⟩ =
      .ok [⟨"toString()", ⟨⟨0⟩, 0⟩⟩, ⟨"value()", ⟨⟨1⟩, 0⟩⟩, ⟨"append()", ⟨⟨1⟩, 1⟩⟩] := rfl
  refine (methodTable_eq_ok rfl rfl members).mpr ⟨[
    ⟨NameHash.of "toString()", "toString()", ⟨⟨0⟩, 0⟩, some ⟨1⟩⟩,
    ⟨NameHash.of "value()", "value()", ⟨⟨1⟩, 0⟩, some ⟨2⟩⟩,
    ⟨NameHash.of "append()", "append()", ⟨⟨1⟩, 1⟩, some ⟨3⟩⟩], ?_,
    sortDistinct_eq_ok_iff.mpr ⟨?_, ?_⟩⟩
  · exact .cons ⟨rfl, rfl, rfl, rfl⟩ (.cons ⟨rfl, rfl, rfl, rfl⟩ (.cons ⟨rfl, rfl, rfl, rfl⟩ .nil))
  · exact (List.Perm.swap _ _ _).cons _
  · unfold MethodRecord.Ascending
    decide +kernel

/-- The fields stand in the table in another order than in the class, and so do the methods. -/
theorem linkedNodes_lookup :
    ∃ definition table entries, linkedNodes.definition? ⟨1⟩ = some definition ∧
      linkedNodes.instanceLayout .iphone ⟨1⟩ = .ok ⟨32, [8, 16, 24], [24]⟩ ∧
      FieldsFound definition ⟨32, [8, 16, 24], [24]⟩ ∧
      linkedNodes.methodTable ⟨1⟩ = .ok table ∧ linkedNodes.members ⟨1⟩ = .ok entries ∧
      linkedNodes.MethodsFound entries table := by
  have laidOut : linkedNodes.instanceLayout .iphone ⟨1⟩ = .ok ⟨32, [8, 16, 24], [24]⟩ := by
    decide +kernel
  have defined : linkedNodes.definition? ⟨1⟩ = some _ := rfl
  obtain ⟨fields, methods⟩ := lookup_of_sortClasses linkedNodes_sortClasses defined
  obtain ⟨entries, answered, found⟩ := methods _ rfl linkedNodes_methodTable
  exact ⟨_, _, entries, defined, laidOut, fields _ _ laidOut (by decide +kernel),
    linkedNodes_methodTable, answered, found⟩

end Catalog

end TypeRecords
