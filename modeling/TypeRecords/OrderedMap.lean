/-!
Finite maps that keep the order of insertion.

Owns the map type, whose keys are distinct by construction, and its operations. Inserting under a
key already present replaces the value and moves the entry to the end; `find?_insert` and
`keys_insert` say so.
-/

namespace TypeRecords

universe u v

/-- A finite map listed in insertion order. -/
structure OrderedMap (κ : Type u) (α : Type v) where
  entries : List (κ × α)
  keysDistinct : (entries.map Prod.fst).Nodup
deriving DecidableEq

namespace OrderedMap

variable {κ : Type u} {α : Type v}

/-- The map without entries. -/
def empty : OrderedMap κ α := ⟨[], List.nodup_nil⟩

instance : Inhabited (OrderedMap κ α) := ⟨empty⟩

/-- The keys in insertion order. -/
def keys (map : OrderedMap κ α) : List κ := map.entries.map Prod.fst

/-- The number of entries. -/
def size (map : OrderedMap κ α) : Nat := map.entries.length

/-- The map with every value replaced. -/
def mapValues {β : Type v} (change : α → β) (map : OrderedMap κ α) : OrderedMap κ β where
  entries := map.entries.map fun entry => (entry.1, change entry.2)
  keysDistinct := by simpa [Function.comp_def] using map.keysDistinct

/-- Replacing values back and forth restores the map. -/
theorem mapValues_mapValues {β : Type v} {change : α → β} {undo : β → α}
    (inverse : ∀ value, undo (change value) = value) (map : OrderedMap κ α) :
    (map.mapValues change).mapValues undo = map := by
  cases map
  simp [mapValues, Function.comp_def, inverse]

variable [DecidableEq κ]

/-- The value under a key. -/
def find? (map : OrderedMap κ α) (key : κ) : Option α :=
  (map.entries.find? fun entry => entry.1 = key).map Prod.snd

/-- Whether the key has an entry. -/
def contains (map : OrderedMap κ α) (key : κ) : Bool := (map.find? key).isSome

/-- The entries under any other key. -/
def entriesExcept (map : OrderedMap κ α) (key : κ) : List (κ × α) :=
  map.entries.filter fun entry => entry.1 ≠ key

private theorem keysDistinct_insert (map : OrderedMap κ α) (key : κ) (value : α) :
    ((map.entriesExcept key ++ [(key, value)]).map Prod.fst).Nodup := by
  rw [List.map_append, List.nodup_append]
  refine ⟨?_, by simp, ?_⟩
  · exact List.Nodup.sublist (List.Sublist.map _ List.filter_sublist) map.keysDistinct
  · intro left leftMember right rightMember
    simp [entriesExcept] at leftMember rightMember
    subst rightMember
    exact leftMember.2

/-- Puts the entry at the end, in place of any entry under the same key. -/
def insert (map : OrderedMap κ α) (key : κ) (value : α) : OrderedMap κ α where
  entries := map.entriesExcept key ++ [(key, value)]
  keysDistinct := keysDistinct_insert map key value

/-- The map that results from inserting the pairs one after the other. -/
def ofList (pairs : List (κ × α)) : OrderedMap κ α :=
  pairs.foldl (fun map pair => map.insert pair.1 pair.2) empty

/-- Inserting pairs under new, distinct keys appends them. -/
theorem entries_foldl_insert (pairs : List (κ × α)) (map : OrderedMap κ α)
    (distinct : ((map.entries ++ pairs).map Prod.fst).Nodup) :
    (pairs.foldl (fun map pair => map.insert pair.1 pair.2) map).entries =
      map.entries ++ pairs := by
  induction pairs generalizing map with
  | nil => simp
  | cons pair rest inductionHypothesis =>
    have absent : ∀ entry ∈ map.entries, entry.1 ≠ pair.1 := by
      intro entry member
      rw [List.map_append, List.nodup_append] at distinct
      exact distinct.2.2 _ (List.mem_map_of_mem member) _ (by simp)
    have kept : map.entriesExcept pair.1 = map.entries := by
      simpa [entriesExcept, List.filter_eq_self] using absent
    have inserted : (map.insert pair.1 pair.2).entries = map.entries ++ [pair] := by
      simp [insert, kept]
    rw [List.foldl_cons, inductionHypothesis _ (by simpa [inserted] using distinct), inserted]
    simp

/-- Inserting the entries of a map one after the other restores it. -/
theorem ofList_entries (map : OrderedMap κ α) : ofList map.entries = map := by
  have entriesEqual : (ofList map.entries).entries = map.entries := by
    simpa [ofList, empty] using
      entries_foldl_insert map.entries empty (by simpa [empty] using map.keysDistinct)
  cases restored : ofList map.entries
  cases map
  simp_all

private theorem find?_of_mem {key : κ} {value : α} :
    ∀ {entries : List (κ × α)}, (entries.map Prod.fst).Nodup → (key, value) ∈ entries →
      entries.find? (fun entry => entry.1 = key) = some (key, value)
  | [], _, member => by cases member
  | first :: rest, distinct, member => by
    rw [List.map_cons, List.nodup_cons] at distinct
    rcases List.mem_cons.mp member with same | later
    · rw [← same, List.find?_cons_of_pos (by simp)]
    · have differs : first.1 ≠ key := by
        rintro rfl
        exact distinct.1 (List.mem_map.mpr ⟨_, later, rfl⟩)
      rw [List.find?_cons_of_neg (by simpa using differs)]
      exact find?_of_mem distinct.2 later

/-- Lookup finds exactly the entries. -/
theorem find?_eq_some_iff {map : OrderedMap κ α} {key : κ} {value : α} :
    map.find? key = some value ↔ (key, value) ∈ map.entries := by
  constructor
  · intro found
    obtain ⟨entry, located, rfl⟩ := Option.map_eq_some_iff.mp found
    have sameKey : entry.1 = key := by simpa using List.find?_some located
    rw [← sameKey]
    exact List.mem_of_find?_eq_some located
  · intro member
    rw [find?, find?_of_mem map.keysDistinct member]
    rfl

/-- The keys are those under which lookup finds something. -/
theorem mem_keys_iff {map : OrderedMap κ α} {key : κ} :
    key ∈ map.keys ↔ ∃ value, map.find? key = some value := by
  simp [keys, find?_eq_some_iff]

/-- The keys after an insertion: the key moves to the end. -/
theorem keys_insert (map : OrderedMap κ α) (key : κ) (value : α) :
    (map.insert key value).keys = (map.keys.filter (· ≠ key)) ++ [key] := by
  simp [keys, insert, entriesExcept, List.filter_map, Function.comp_def]

/-- An entry under a new key comes behind all others. -/
theorem entries_insert {map : OrderedMap κ α} {key : κ} (isNew : map.find? key = none) (value : α) :
    (map.insert key value).entries = map.entries ++ [(key, value)] := by
  have absent : ∀ entry ∈ map.entries, entry.1 ≠ key := by
    rintro ⟨_, present⟩ member rfl
    rw [find?_eq_some_iff.mpr member] at isNew
    cases isNew
  have kept : map.entriesExcept key = map.entries := by
    simpa [entriesExcept, List.filter_eq_self] using absent
  show map.entriesExcept key ++ [(key, value)] = _
  rw [kept]

/-- An entry under a new key makes the map larger by one. -/
theorem size_insert {map : OrderedMap κ α} {key : κ} (isNew : map.find? key = none) (value : α) :
    (map.insert key value).size = map.size + 1 := by
  rw [size, entries_insert isNew, List.length_append]
  rfl

/-- Lookup after an insertion. -/
theorem find?_insert (map : OrderedMap κ α) (key wanted : κ) (value : α) :
    (map.insert key value).find? wanted =
      if wanted = key then some value else map.find? wanted := by
  by_cases same : wanted = key
  · subst same
    have absent : (map.entriesExcept wanted).find? (fun entry => entry.1 = wanted) = none := by
      simp [entriesExcept]
    simp [find?, insert, List.find?_append, absent]
  · have kept : (map.entriesExcept key).find? (fun entry => entry.1 = wanted) =
        map.entries.find? (fun entry => entry.1 = wanted) := by
      rw [entriesExcept, List.find?_filter]
      congr 1
      funext entry
      by_cases found : entry.1 = wanted
      · simp [found, same]
      · simp [found]
    have differs : ¬ key = wanted := fun equal => same equal.symm
    simp [find?, insert, List.find?_append, kept, same, differs]

end OrderedMap

end TypeRecords
