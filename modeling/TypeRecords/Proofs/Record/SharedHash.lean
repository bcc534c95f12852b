import Mathlib.Data.List.Forall2
import TypeRecords.Proofs.Record.DispatchPaths

/-!
Shared hashes.

Owns what becomes of records that share a hash. A table is sorted stably before neighbours are
compared. So the two records that are reported are the first two, in the order they were given in,
of the least hash that several have. Records whose hashes are distinct end in the one strictly
ascending order. Owns also what this says of the members of a class, whose method table is refused
for a missing function or for a shared hash and for nothing else.
-/

namespace TypeRecords

namespace NameHash

variable {first second third : NameHash}

theorem atMost_iff : first.atMost second = true ↔ first.word ≤ second.word :=
  decide_eq_true_iff

theorem atMost_trans (below : first.atMost second = true) (above : second.atMost third = true) :
    first.atMost third = true :=
  atMost_iff.mpr (UInt64.le_trans (atMost_iff.mp below) (atMost_iff.mp above))

theorem atMost_total (first second : NameHash) :
    (first.atMost second || second.atMost first) = true := by
  rw [Bool.or_eq_true, atMost_iff, atMost_iff]
  exact UInt64.le_total _ _

theorem atMost_refl (hash : NameHash) : hash.atMost hash = true := atMost_iff.mpr (UInt64.le_refl _)

theorem eq_of_atMost (below : first.atMost second = true) (above : second.atMost first = true) :
    first = second := by
  cases first
  cases second
  exact congrArg _ (UInt64.le_antisymm (atMost_iff.mp below) (atMost_iff.mp above))

end NameHash

/-! ## The least hash that is shared -/

/-- Whether two items are the first ones of the least hash that several items have. -/
structure FirstShared {α : Type} (hashOf : α → NameHash) (items : List α) (first second : α) :
    Prop where
  occurrences : ∃ rest, (items.filter fun item => hashOf item = hashOf first) =
    first :: second :: rest
  least : ∀ hash, 2 ≤ (items.map hashOf).count hash → (hashOf first).atMost hash = true

namespace FirstShared

variable {α β : Type} {hashOf : α → NameHash} {items : List α} {first second : α}

theorem sublist (shared : FirstShared hashOf items first second) :
    [first, second].Sublist items := by
  obtain ⟨rest, occurrences⟩ := shared.occurrences
  have leading : [first, second].Sublist (first :: second :: rest) := by simp
  exact (occurrences ▸ leading).trans List.filter_sublist

theorem mem_first (shared : FirstShared hashOf items first second) : first ∈ items :=
  shared.sublist.subset (by simp)

theorem mem_second (shared : FirstShared hashOf items first second) : second ∈ items :=
  shared.sublist.subset (by simp)

theorem same_hash (shared : FirstShared hashOf items first second) :
    hashOf first = hashOf second := by
  obtain ⟨rest, occurrences⟩ := shared.occurrences
  have listed : second ∈ items.filter fun item => hashOf item = hashOf first := by
    simp [occurrences]
  exact (of_decide_eq_true (List.mem_filter.mp listed).2).symm

theorem apart {keyOf : α → β} (shared : FirstShared hashOf items first second)
    (distinct : (items.map keyOf).Nodup) : keyOf first ≠ keyOf second := by
  have pair := (shared.sublist.map keyOf).nodup distinct
  simpa using pair

theorem two_le_count (shared : FirstShared hashOf items first second) :
    2 ≤ (items.map hashOf).count (hashOf first) := by
  obtain ⟨rest, occurrences⟩ := shared.occurrences
  have counted : (items.map hashOf).count (hashOf first) =
      (items.filter fun item => hashOf item = hashOf first).length := by
    rw [List.count, List.countP_map, List.countP_eq_length_filter]
    rfl
  rw [counted, occurrences]
  simp

theorem not_nodup (shared : FirstShared hashOf items first second) :
    ¬ (items.map hashOf).Nodup := by
  intro distinct
  have once := List.nodup_iff_count_le_one.mp distinct (hashOf first)
  have twice := shared.two_le_count
  omega

theorem unique (shared : FirstShared hashOf items first second) {third fourth : α}
    (other : FirstShared hashOf items third fourth) : third = first ∧ fourth = second := by
  have sameHash : hashOf third = hashOf first :=
    NameHash.eq_of_atMost (other.least _ shared.two_le_count) (shared.least _ other.two_le_count)
  obtain ⟨rest, occurrences⟩ := shared.occurrences
  obtain ⟨otherRest, otherOccurrences⟩ := other.occurrences
  rw [sameHash, occurrences] at otherOccurrences
  injection otherOccurrences with sameFirst sameRest
  injection sameRest with sameSecond
  exact ⟨sameFirst.symm, sameSecond.symm⟩

/-- Items that stand for others one by one share the hashes that these share. -/
theorem of_forall₂ {relation : β → α → Prop} {hashOf' : β → NameHash} {others : List β}
    (pairs : List.Forall₂ relation others items)
    (sameHash : ∀ other item, relation other item → hashOf' other = hashOf item)
    (shared : FirstShared hashOf items first second) :
    ∃ third fourth, FirstShared hashOf' others third fourth ∧ relation third first ∧
      relation fourth second := by
  have sameHashes : others.map hashOf' = items.map hashOf :=
    Outcome.map_eq_map_of_forall₂ pairs sameHash
  obtain ⟨rest, occurrences⟩ := shared.occurrences
  have chosen := List.rel_filter (p := fun other => decide (hashOf' other = hashOf first))
    (q := fun item => decide (hashOf item = hashOf first))
    (fun other item related => by simp [sameHash other item related]) pairs
  rw [occurrences] at chosen
  cases chosenIs : others.filter fun other => decide (hashOf' other = hashOf first) with
  | nil =>
    rw [chosenIs] at chosen
    cases chosen
  | cons third remaining =>
    rw [chosenIs] at chosen
    obtain ⟨firstRelated, later⟩ := List.forall₂_cons.mp chosen
    cases later with
    | @cons fourth _ final _ secondRelated _ =>
      have firstHash := sameHash _ _ firstRelated
      refine ⟨third, fourth, ⟨⟨final, ?_⟩, ?_⟩, firstRelated, secondRelated⟩
      · rw [firstHash]
        exact chosenIs
      · rw [firstHash, sameHashes]
        exact shared.least

end FirstShared

/-- Whether the hashes of a table do not fall. -/
def InHashOrder {α : Type} (hashOf : α → NameHash) (table : List α) : Prop :=
  table.Pairwise fun left right => (hashOf left).atMost (hashOf right) = true

theorem inHashOrder_mergeSort {α : Type} (hashOf : α → NameHash) (items : List α) :
    InHashOrder hashOf (items.mergeSort fun left right => (hashOf left).atMost (hashOf right)) :=
  @List.pairwise_mergeSort α (fun left right => (hashOf left).atMost (hashOf right))
    (fun _ _ _ => NameHash.atMost_trans) (fun _ _ => NameHash.atMost_total _ _) items

/-- Sorting by hash keeps the items of one hash in their order. -/
theorem filter_mergeSort_eq {α : Type} (hashOf : α → NameHash) (items : List α) (hash : NameHash) :
    ((items.mergeSort fun left right => (hashOf left).atMost (hashOf right)).filter
      fun item => hashOf item = hash) = items.filter fun item => hashOf item = hash := by
  let inOrder : α → α → Bool := fun left right => (hashOf left).atMost (hashOf right)
  have alike : (items.filter fun item => hashOf item = hash).Pairwise
      fun left right => inOrder left right = true := by
    refine List.pairwise_of_forall_mem_list fun left leftMember right rightMember => ?_
    have leftHash : hashOf left = hash := by simpa using (List.mem_filter.mp leftMember).2
    have rightHash : hashOf right = hash := by simpa using (List.mem_filter.mp rightMember).2
    show (hashOf left).atMost (hashOf right) = true
    rw [leftHash, rightHash]
    exact hash.atMost_refl
  have kept := @List.sublist_mergeSort α inOrder items (fun _ _ _ => NameHash.atMost_trans)
    (fun _ _ => NameHash.atMost_total _ _) _ alike List.filter_sublist
  have among := kept.filter fun item => hashOf item = hash
  rw [List.filter_filter] at among
  simp only [Bool.and_self] at among
  have sameLength := ((List.mergeSort_perm items inOrder).filter
    fun item => hashOf item = hash).length_eq
  exact (among.eq_of_length sameLength.symm).symm

namespace MethodRecord

variable {records others : List MethodRecord} {record next first second : MethodRecord}

/-- Whether records are in ascending order of their hashes. -/
def InOrder (records : List MethodRecord) : Prop :=
  records.Pairwise fun left right => left.hash.atMost right.hash = true

/-- A record whose neighbour has another hash is the only one with its hash: a later one would
squeeze the neighbour in between. -/
theorem hash_not_mem (inOrder : InOrder (record :: next :: others))
    (apart : record.hash ≠ next.hash) : record.hash ∉ (next :: others).map hash := by
  intro again
  obtain ⟨later, member, sameHash⟩ := List.mem_map.mp again
  rw [InOrder, List.pairwise_cons, List.pairwise_cons] at inOrder
  have before := inOrder.1 next List.mem_cons_self
  have after : next.hash.atMost record.hash = true := by
    rw [← sameHash]
    rcases List.mem_cons.mp member with rfl | further
    · exact NameHash.atMost_refl _
    · exact inOrder.2.1 later further
  exact apart (NameHash.eq_of_atMost before after)

theorem nodup_of_firstClash?_eq_none (inOrder : InOrder records)
    (noClash : firstClash? records = none) : (records.map hash).Nodup := by
  induction records with
  | nil => exact List.nodup_nil
  | cons record rest inductionHypothesis =>
    cases rest with
    | nil => exact List.nodup_singleton _
    | cons next others =>
      rw [firstClash?] at noClash
      split_ifs at noClash with same
      exact List.nodup_cons.mpr ⟨hash_not_mem inOrder same,
        inductionHypothesis (List.pairwise_cons.mp inOrder).2 noClash⟩

theorem firstShared_of_firstClash? (inOrder : InOrder records)
    (clash : firstClash? records = some (first, second)) :
    FirstShared hash records first second := by
  induction records with
  | nil => cases clash
  | cons record rest inductionHypothesis =>
    cases rest with
    | nil => cases clash
    | cons next others =>
      rw [firstClash?] at clash
      split_ifs at clash with same
      · obtain ⟨rfl, rfl⟩ := Prod.mk.inj (Option.some.inj clash)
        refine ⟨⟨others.filter fun item => item.hash = record.hash, by simp [same]⟩,
          fun hash shared => ?_⟩
        have occurs : hash ∈ (record :: next :: others).map MethodRecord.hash :=
          List.count_pos_iff.mp (by omega)
        obtain ⟨owner, member, rfl⟩ := List.mem_map.mp occurs
        rcases List.mem_cons.mp member with rfl | later
        · exact NameHash.atMost_refl _
        · exact (List.pairwise_cons.mp inOrder).1 owner later
      · have shared := inductionHypothesis (List.pairwise_cons.mp inOrder).2 clash
        have alone := hash_not_mem inOrder same
        refine ⟨?_, fun hash twice => shared.least hash ?_⟩
        · have apart : record.hash ≠ first.hash := by
            intro sameHash
            exact alone (sameHash ▸ List.mem_map_of_mem shared.mem_first)
          rw [List.filter_cons_of_neg (by simpa using apart)]
          exact shared.occurrences
        · have apart : record.hash ≠ hash := by
            rintro rfl
            rw [List.map_cons, List.count_cons_self, List.count_eq_zero_of_not_mem alone] at twice
            omega
          rwa [List.map_cons, List.count_cons_of_ne apart] at twice

/-- Whether the hashes of records grow from each record to all later ones, as unsigned words. -/
def Ascending (records : List MethodRecord) : Prop :=
  records.Pairwise fun left right => left.hash.word < right.hash.word

theorem InOrder.ascending (inOrder : InOrder records) (distinct : (records.map hash).Nodup) :
    Ascending records := by
  rw [List.Nodup, List.pairwise_map] at distinct
  refine inOrder.imp₂ (fun left right atMost apart => ?_) distinct
  have differs : left.hash.word ≠ right.hash.word := by
    intro same
    exact apart (NameHash.eq_of_atMost atMost (NameHash.atMost_iff.mpr (UInt64.le_of_eq same.symm)))
  exact UInt64.lt_of_le_of_ne (NameHash.atMost_iff.mp atMost) differs

theorem Ascending.nodup_hashes (ascending : Ascending records) : (records.map hash).Nodup := by
  rw [List.Nodup, List.pairwise_map]
  refine ascending.imp fun below same => ?_
  rw [same] at below
  exact UInt64.lt_irrefl _ below

/-- There is one ascending order of given records. -/
theorem Ascending.eq_of_perm (ascending : Ascending records) (otherAscending : Ascending others)
    (perm : records.Perm others) : records = others := by
  refine perm.eq_of_pairwise (fun left right _ _ below above => ?_) ascending otherAscending
  exact absurd (UInt64.lt_trans below above) (UInt64.lt_irrefl _)

end MethodRecord

namespace Catalog

open Outcome

variable {catalog : Catalog} {className : QualifiedName} {records sorted : List MethodRecord}

/-! ## Sorting records -/

theorem inOrder_mergeSort (records : List MethodRecord) :
    MethodRecord.InOrder (records.mergeSort fun left right => left.hash.atMost right.hash) :=
  inHashOrder_mergeSort MethodRecord.hash records

/-- Records that can be sorted have hashes of their own. -/
theorem nodup_of_sortDistinct (distinct : catalog.sortDistinct className records = .ok sorted) :
    (records.map MethodRecord.hash).Nodup := by
  rw [sortDistinct] at distinct
  split at distinct
  · rename_i noClash
    have sortedDistinct :=
      MethodRecord.nodup_of_firstClash?_eq_none (inOrder_mergeSort records) noClash
    rwa [((List.mergeSort_perm records _).map MethodRecord.hash).nodup_iff] at sortedDistinct
  · cases distinct

/-- Records that cannot are reported by the first two of the least hash they share. -/
theorem exists_firstShared_of_sortDistinct {failure : Failure}
    (failed : catalog.sortDistinct className records = .error failure) :
    ∃ first second, FirstShared MethodRecord.hash records first second ∧
      failure = .reported (.duplicateHash className second.name second.hash
        (catalog.describeRecord first) (catalog.describeRecord second)) := by
  rw [sortDistinct] at failed
  split at failed
  · cases failed
  · rename_i first second clash
    have shared := MethodRecord.firstShared_of_firstClash? (inOrder_mergeSort records) clash
    refine ⟨first, second, ⟨?_, ?_⟩, (Except.error.inj failed).symm⟩
    · rw [← filter_mergeSort_eq]
      exact shared.occurrences
    · intro hash twice
      refine shared.least hash ?_
      rwa [((List.mergeSort_perm records _).map MethodRecord.hash).count_eq]

theorem ascending_of_sortDistinct (distinct : catalog.sortDistinct className records = .ok sorted) :
    MethodRecord.Ascending sorted := by
  have perm := sortDistinct_perm distinct
  have hashes := nodup_of_sortDistinct distinct
  rw [← (perm.map MethodRecord.hash).nodup_iff] at hashes
  refine MethodRecord.InOrder.ascending ?_ hashes
  rw [sortDistinct] at distinct
  split at distinct
  · rw [← Except.ok.inj distinct]
    exact inOrder_mergeSort records
  · cases distinct

theorem exists_sortDistinct_eq_ok_iff :
    (∃ sorted, catalog.sortDistinct className records = .ok sorted) ↔
      (records.map MethodRecord.hash).Nodup := by
  constructor
  · rintro ⟨sorted, distinct⟩
    exact nodup_of_sortDistinct distinct
  · intro hashes
    cases sorting : catalog.sortDistinct className records with
    | ok sorted => exact ⟨sorted, rfl⟩
    | error failure =>
      obtain ⟨first, second, shared, _⟩ := exists_firstShared_of_sortDistinct sorting
      exact absurd hashes shared.not_nodup

/-- The sorted records are the one ascending arrangement of those given. -/
theorem sortDistinct_eq_ok_iff :
    catalog.sortDistinct className records = .ok sorted ↔
      sorted.Perm records ∧ MethodRecord.Ascending sorted := by
  constructor
  · intro distinct
    exact ⟨sortDistinct_perm distinct, ascending_of_sortDistinct distinct⟩
  · rintro ⟨perm, ascending⟩
    have hashes := ascending.nodup_hashes
    rw [(perm.map MethodRecord.hash).nodup_iff] at hashes
    obtain ⟨other, distinct⟩ := exists_sortDistinct_eq_ok_iff.mpr hashes
    have samePerm := (sortDistinct_perm distinct).trans perm.symm
    rw [distinct, (ascending_of_sortDistinct distinct).eq_of_perm ascending samePerm]

theorem sortDistinct_eq_error_iff {failure : Failure} :
    catalog.sortDistinct className records = .error failure ↔
      ∃ first second, FirstShared MethodRecord.hash records first second ∧
        failure = .reported (.duplicateHash className second.name first.hash
          (catalog.describeRecord first) (catalog.describeRecord second)) := by
  constructor
  · intro failed
    obtain ⟨first, second, shared, same⟩ := exists_firstShared_of_sortDistinct failed
    rw [← shared.same_hash] at same
    exact ⟨first, second, shared, same⟩
  · rintro ⟨first, second, shared, rfl⟩
    cases sorting : catalog.sortDistinct className records with
    | ok sorted => exact absurd (nodup_of_sortDistinct sorting) shared.not_nodup
    | error failure =>
      obtain ⟨third, fourth, otherShared, rfl⟩ := exists_firstShared_of_sortDistinct sorting
      obtain ⟨rfl, rfl⟩ := shared.unique otherShared
      rw [otherShared.same_hash]

/-- Records are sorted exactly if their hashes are distinct, and then stand in the one ascending
order. Otherwise the error names the first two records, as they were given, of the least hash that
several have. -/
theorem sortDistinct_sorts_or_reports (catalog : Catalog) (className : QualifiedName)
    (records : List MethodRecord) :
    ((∃ sorted, catalog.sortDistinct className records = .ok sorted) ↔
      (records.map MethodRecord.hash).Nodup) ∧
    (∀ sorted, catalog.sortDistinct className records = .ok sorted ↔
      sorted.Perm records ∧ MethodRecord.Ascending sorted) ∧
    (∀ failure, catalog.sortDistinct className records = .error failure ↔
      ∃ first second, FirstShared MethodRecord.hash records first second ∧
        failure = .reported (.duplicateHash className second.name first.hash
          (catalog.describeRecord first) (catalog.describeRecord second))) :=
  ⟨exists_sortDistinct_eq_ok_iff, fun _ => sortDistinct_eq_ok_iff,
    fun _ => sortDistinct_eq_error_iff⟩

/-! ## Refused method tables -/

/-- The hash under which a member is looked up. -/
def memberHash (entry : DispatchEntry) : NameHash := NameHash.of entry.name

/-- A member as messages mention it. -/
def describeEntry (catalog : Catalog) (entry : DispatchEntry) : String :=
  s!"{entry.name} (implemented by {catalog.describeMethod entry.implementation})"

/-- Whether a member is implemented by a method that needs a function and has none. -/
def LacksFunction (catalog : Catalog) (entry : DispatchEntry) : Prop :=
  ∃ method, catalog.method? entry.implementation = some method ∧
    method.implementation ≠ .abstract ∧ method.function = none

theorem RecordOf.describeRecord_eq {entry : DispatchEntry} {record : MethodRecord}
    (isRecord : catalog.RecordOf entry record) :
    catalog.describeRecord record = catalog.describeEntry entry := by
  rw [describeRecord, describeEntry, isRecord.name, isRecord.implementation]

theorem RecordOf.not_lacksFunction {entry : DispatchEntry} {record : MethodRecord}
    (isRecord : catalog.RecordOf entry record) : ¬ catalog.LacksFunction entry := by
  rintro ⟨method, found, notAbstract, absent⟩
  rcases (entryPoint_eq_ok found).mp isRecord.entryPoint with ⟨isAbstract, _⟩ | ⟨_, same, present⟩
  · exact notAbstract isAbstract
  · exact present (same.trans absent)

theorem lacksFunction_of_methodRecord {entry : DispatchEntry} {method : MethodDefinition}
    (found : catalog.method? entry.implementation = some method) {failure : Failure}
    (failed : catalog.methodRecord entry = .error failure) :
    catalog.LacksFunction entry ∧
      failure = .reported (.missingEntryPoint (catalog.describeMethod entry.implementation)) := by
  rcases bind_eq_error.mp failed with refused | ⟨address, _, built⟩
  · refine ⟨⟨method, found, ?_⟩, missingEntryPoint_of_entryPoint found refused⟩
    rw [entryPoint_eq found] at refused
    split_ifs at refused with isAbstract
    exact ⟨isAbstract, (map_requiredFunction_eq_error.mp refused).1⟩
  · cases built

/-- What keeps the method table of a class with these members from being made: the first member
without its function, and otherwise the least hash that is shared. -/
inductive TableRefused (catalog : Catalog) (className : QualifiedName)
    (entries : List DispatchEntry) : RecordError → Prop
  | missingFunction {entry : DispatchEntry} (first : IsFirst catalog.LacksFunction entries entry) :
      TableRefused catalog className entries
        (.missingEntryPoint (catalog.describeMethod entry.implementation))
  | sharedHash {first second : DispatchEntry}
      (complete : ∀ entry ∈ entries, ¬ catalog.LacksFunction entry)
      (shared : FirstShared memberHash entries first second) :
      TableRefused catalog className entries (.duplicateHash className second.name
        (memberHash second) (catalog.describeEntry first) (catalog.describeEntry second))

section MethodTables

variable {id : ClassId} {definition : ClassDefinition}
  {entries : List DispatchEntry}
  (defined : catalog.definition? id = some definition) (isConcrete : definition.isAbstract = false)
  (answered : catalog.members id = .ok entries)
include defined isConcrete answered

theorem complete_of_methodTable {table : List MethodRecord}
    (tabled : catalog.methodTable id = .ok table) :
    (∀ entry ∈ entries, ¬ catalog.LacksFunction entry) ∧ (entries.map memberHash).Nodup := by
  obtain ⟨records, pairs, distinct⟩ := (methodTable_eq_ok defined isConcrete answered).mp tabled
  have sameHashes : entries.map memberHash = records.map MethodRecord.hash :=
    map_eq_map_of_forall₂ pairs fun _ _ isRecord => isRecord.hash.symm
  refine ⟨fun entry member => ?_, sameHashes ▸ nodup_of_sortDistinct distinct⟩
  obtain ⟨record, _, isRecord⟩ := exists_recordOf_of_mem pairs member
  exact isRecord.not_lacksFunction

theorem tableRefused_of_methodTable (declared : catalog.AllDeclared entries) {failure : Failure}
    (failed : catalog.methodTable id = .error failure) :
    ∃ error, failure = .reported error ∧ catalog.TableRefused definition.name entries error := by
  rw [methodTable_eq defined isConcrete answered] at failed
  rcases bind_eq_error.mp failed with refused | ⟨records, recorded, refused⟩
  · obtain ⟨before, entry, after, rfl, own, answers⟩ := exists_first_of_mapM_eq_error refused
    obtain ⟨method, found⟩ := declared entry (by simp)
    obtain ⟨lacks, rfl⟩ := lacksFunction_of_methodRecord found own
    refine ⟨_, rfl, .missingFunction (.of_append (fun passed member => ?_) lacks)⟩
    obtain ⟨record, made⟩ := answers passed member
    exact (methodRecord_eq_ok.mp made).not_lacksFunction
  · have pairs : List.Forall₂ catalog.RecordOf entries records :=
      (mapM_eq_ok.mp recorded).imp fun _ _ => methodRecord_eq_ok.mp
    obtain ⟨firstRecord, secondRecord, shared, rfl⟩ := exists_firstShared_of_sortDistinct refused
    obtain ⟨first, second, sharedEntries, isFirst, isSecond⟩ := shared.of_forall₂ pairs
      fun entry record isRecord => isRecord.hash.symm
    refine ⟨_, rfl, ?_⟩
    rw [isFirst.describeRecord_eq, isSecond.describeRecord_eq, isSecond.name, isSecond.hash]
    refine .sharedHash (fun entry member => ?_) sharedEntries
    obtain ⟨record, _, isRecord⟩ := exists_recordOf_of_mem pairs member
    exact isRecord.not_lacksFunction

end MethodTables

end Catalog

end TypeRecords
