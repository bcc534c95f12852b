import Mathlib.Order.Bounds.Basic
import TypeRecords.Proofs.Segment.Requests

/-!
Edits under fresh names.

Owns what these edits do in every segment that requests lead to. There the names of the index are
those of the globals, so a name that is free in the index belongs to no global. The suffix is the
least that is free, and never greater than the number of globals: a wanted name that is taken and
the lower suffixes are names of different globals. So a counter that can number the globals is wide
enough for the search.
-/

namespace TypeRecords

namespace Segment

variable {segment before after : Segment} {name : String} {requests : List Request}

/-! ## Free names -/

/-- Whether no global of a segment has a name. -/
def NameFree (segment : Segment) (name : String) : Prop :=
  ∀ global ∈ segment.globals, global.name ≠ name

theorem Indexed.nameFree_iff (indexed : segment.Indexed) :
    segment.NameFree name ↔ segment.names.find? name = none := by
  constructor
  · intro isFree
    cases found : segment.names.find? name with
    | none => rfl
    | some id =>
      obtain ⟨global, located, named⟩ := indexed.names.mp found
      exact absurd named (isFree global (List.mem_of_getElem? located))
  · intro isFree global listed named
    obtain ⟨place, located⟩ := List.mem_iff_getElem?.mp listed
    have found : segment.names.find? name = some ⟨place⟩ :=
      indexed.names.mpr ⟨global, located, named⟩
    cases isFree.symm.trans found

theorem Indexed.not_nameFree_iff (indexed : segment.Indexed) :
    ¬segment.NameFree name ↔ segment.names.contains name = true := by
  rw [indexed.nameFree_iff, OrderedMap.contains, Option.isSome_iff_ne_none]

theorem mem_names_of_not_nameFree (taken : ¬segment.NameFree name) :
    name ∈ segment.globals.map Global.name := by
  by_contra absent
  exact taken fun global listed named => absent (named ▸ List.mem_map_of_mem listed)

/-! ## Suffixes -/

theorem ne_suffixedName (name : String) (suffix : Nat) : name ≠ suffixedName name suffix := by
  intro same
  have sameLength := congrArg String.length same
  rw [show suffixedName name suffix = name ++ "." ++ suffix.repr from rfl, String.length_append,
    String.length_append, show ".".length = 1 from rfl] at sameLength
  omega

/-- A taken name with taken suffixes below some number needs as many globals. -/
theorem suffix_le_size (taken : ¬segment.NameFree name) {suffix : Nat}
    (lowerTaken : ∀ lower, 1 ≤ lower → lower < suffix →
      ¬segment.NameFree (suffixedName name lower)) :
    suffix ≤ segment.size := by
  cases suffix with
  | zero => exact Nat.zero_le _
  | succ count =>
    have distinct : (name :: (List.range' 1 count).map (suffixedName name)).Nodup := by
      refine List.nodup_cons.mpr ⟨fun member => ?_, ?_⟩
      · obtain ⟨lower, _, same⟩ := List.mem_map.mp member
        exact ne_suffixedName name lower same.symm
      · exact List.Nodup.map (fun _ _ same => suffixedName_injective same) List.nodup_range'
    have present : (name :: (List.range' 1 count).map (suffixedName name)) ⊆
        segment.globals.map Global.name := by
      refine List.cons_subset.mpr ⟨mem_names_of_not_nameFree taken, fun other member => ?_⟩
      obtain ⟨lower, listed, rfl⟩ := List.mem_map.mp member
      obtain ⟨above, below⟩ := List.mem_range'_1.mp listed
      exact mem_names_of_not_nameFree (lowerTaken lower above (by omega))
    have counted := distinct.length_le_of_subset present
    simpa [size] using counted

/-- Whether a name is the fresh one for a wanted name: that name itself where it is free, and else
the one with the least free suffix. -/
inductive FreshFor (segment : Segment) (wanted : String) : String → Prop
  | itself (isFree : segment.NameFree wanted) : FreshFor segment wanted wanted
  | suffixed {suffix : Nat} (taken : ¬segment.NameFree wanted)
      (least : IsLeast {number | 1 ≤ number ∧ segment.NameFree (suffixedName wanted number)} suffix)
      (bounded : suffix ≤ segment.size) : FreshFor segment wanted (suffixedName wanted suffix)

theorem FreshFor.isFree {wanted : String} (fresh : segment.FreshFor wanted name) :
    segment.NameFree name := by
  cases fresh with
  | itself isFree => exact isFree
  | suffixed _ least _ => exact least.1.2

theorem FreshFor.unique {wanted other : String} (fresh : segment.FreshFor wanted name)
    (otherFresh : segment.FreshFor wanted other) : name = other := by
  cases fresh with
  | itself isFree =>
    cases otherFresh with
    | itself _ => rfl
    | suffixed taken _ _ => exact absurd isFree taken
  | suffixed taken least _ =>
    cases otherFresh with
    | itself isFree => exact absurd isFree taken
    | suffixed _ otherLeast _ => rw [least.unique otherLeast]

theorem Indexed.freshFor_unusedName (indexed : segment.Indexed) (name : String) :
    segment.FreshFor name (segment.unusedName name) := by
  rcases unusedName_cases segment name with
    ⟨isFree, same⟩ | ⟨taken, suffix, above, same, isFree, lower⟩
  · rw [same]
    exact .itself (indexed.nameFree_iff.mpr isFree)
  · rw [same]
    have lowerTaken : ∀ number, 1 ≤ number → number < suffix →
        ¬segment.NameFree (suffixedName name number) :=
      fun number positive below => indexed.not_nameFree_iff.mpr (lower number positive below)
    have isTaken := indexed.not_nameFree_iff.mpr taken
    refine .suffixed isTaken ⟨⟨above, indexed.nameFree_iff.mpr isFree⟩, ?_⟩
      (suffix_le_size isTaken lowerTaken)
    rintro number ⟨positive, numberFree⟩
    exact Nat.le_of_not_lt fun below => lowerTaken number positive below numberFree

/-! ## Appended globals -/

/-- Whether one global was appended to a segment, with its name, and nothing else was changed. -/
structure Appended (before after : Segment) (id : GlobalId) (global : Global) : Prop where
  number : id.number = before.size
  globals : after.globals = before.globals ++ [global]
  names : ∀ name, after.findByName? name =
    if name = global.name then some id else before.findByName? name
  used : after.used = before.used
  strings : after.strings = before.strings

theorem appended_withGlobal (segment : Segment) (global : Global) :
    Appended segment (segment.withGlobal global) segment.nextId global where
  number := rfl
  globals := rfl
  names := find?_names_withGlobal segment global
  used := rfl
  strings := rfl

/-- Whether an edit succeeds and appends one global, and nothing more. -/
def JustAppends (edit : Edit GlobalId) (before : Segment) (global : Global) : Prop :=
  ∃ id after, edit before = .ok (id, after) ∧ Appended before after id global

theorem justAppends_of_eq {edit : Edit GlobalId} {global : Global}
    (edited : edit before = .ok (before.nextId, before.withGlobal global)) :
    JustAppends edit before global :=
  ⟨_, _, edited, appended_withGlobal before global⟩

/-! ## Main result -/

/-- What the edits under a fresh name for a wanted name do. -/
structure FreshEdits (segment : Segment) (wanted fresh : String) : Prop where
  place : ∀ initial, JustAppends (placeFresh wanted initial) segment
    ⟨fresh, initial.type, some initial, true, .internal⟩
  placeArray : ∀ element items, JustAppends (placeArray wanted element items) segment
    ⟨fresh, .array element items.length, some (.array element items), true, .internal⟩
  declare : ∀ type, JustAppends (declareFresh wanted type) segment
    ⟨fresh, type, none, false, .internal⟩
  placeWritable : ∀ type, JustAppends (placeWritable wanted type) segment
    ⟨fresh, type, some (.zero type), false, .internal⟩

/-- In every segment that requests lead to, the unused name for a wanted one belongs to no global
and is the fresh name. The edits that ask for one never fail, and do nothing but append a global of
that name. -/
theorem freshEdits_of_answerAll (ran : answerAll requests empty = .ok segment) (wanted : String) :
    segment.NameFree (segment.unusedName wanted) ∧
      (∀ fresh, segment.FreshFor wanted fresh ↔ segment.unusedName wanted = fresh) ∧
      segment.FreshEdits wanted (segment.unusedName wanted) := by
  have fresh := (indexed_of_answerAll ran).freshFor_unusedName wanted
  refine ⟨fresh.isFree, fun other => ⟨fun otherFresh => fresh.unique otherFresh, ?_⟩, ?_⟩
  · rintro rfl
    exact fresh
  · exact {
      place := fun initial => justAppends_of_eq (placeFresh_eq wanted initial segment)
      placeArray := fun element items =>
        justAppends_of_eq (placeArray_eq wanted element items segment)
      declare := fun type => justAppends_of_eq (declareFresh_eq wanted type segment)
      placeWritable := fun type => justAppends_of_eq (placeWritable_eq wanted type segment) }

/-- A name that is taken, and globals whose own names look like suffixed ones. -/
def suffixLikeNames : List Request :=
  [.declareInternal "table" .ptr, .declareInternal "table.1" .ptr, .placeFresh "table" .null,
    .declareInternal "table.4" .ptr, .internString "text"]

theorem suffixLikeNames_freshEdits :
    ∃ segment, answerAll suffixLikeNames empty = .ok segment ∧
      segment.unusedName "table" = "table.3" ∧
      segment.NameFree (segment.unusedName "table") ∧
      (∀ fresh, segment.FreshFor "table" fresh ↔ segment.unusedName "table" = fresh) ∧
      segment.FreshEdits "table" (segment.unusedName "table") := by
  obtain ⟨segment, ran, same⟩ : ∃ segment, answerAll suffixLikeNames empty = .ok segment ∧
      segment.unusedName "table" = "table.3" := ⟨_, rfl, by decide +kernel⟩
  exact ⟨segment, ran, same, freshEdits_of_answerAll ran "table"⟩

end Segment

end TypeRecords
