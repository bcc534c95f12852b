import Mathlib.Data.List.Induction
import TypeRecords.Class.Catalog
import TypeRecords.Proofs.Outcome

/-!
Merged catalogs.

Owns what a merge leaves in a catalog, in which order, and when it fails. The three maps are merged
entry by entry, each by a rule of its own: what is held under a key and what is added decide whether
the added value is taken, what is held is kept, or the merge fails. The entries of a merged map have
a closed form, in which the rule only ever sees what the two operands hold under one key. So merging
is associative as soon as the rule is, key by key, and nothing about the order of the entries is
left to prove.
-/

namespace TypeRecords

namespace OrderedMap

/-! ## Merging by a rule -/

/-- What a merge does with an added value. -/
inductive Verdict where
  | take
  | keep
  | clash
deriving DecidableEq, Repr

/-- What a merge does, given what is held under the key of an added value. -/
abbrev MergeRule (α : Type) := Option α → α → Verdict

namespace MergeRule

variable {α : Type}

/-- Whether a merge takes over what is added under a key, if anything is. -/
def takes (rule : MergeRule α) (held : Option α) : Option α → Bool
  | none => false
  | some added => rule held added = .take

/-- Whether a merge fails at a key. -/
def clashes (rule : MergeRule α) (held : Option α) : Option α → Bool
  | none => false
  | some added => rule held added = .clash

/-- What a merge leaves under a key. -/
def chosen (rule : MergeRule α) (held added : Option α) : Option α :=
  if rule.takes held added then added else held

/-- Whether it does not matter at any key how three operands are grouped: the value comes from the
same one of them, and the merge fails in both groupings or in neither. -/
structure Associates (rule : MergeRule α) : Prop where
  first : ∀ x y z, (!rule.takes x y && !rule.takes (rule.chosen x y) z) =
    !rule.takes x (rule.chosen y z)
  second : ∀ x y z, (rule.takes x y && !rule.takes (rule.chosen x y) z) =
    (!rule.takes y z && rule.takes x (rule.chosen y z))
  third : ∀ x y z, rule.takes (rule.chosen x y) z =
    (rule.takes y z && rule.takes x (rule.chosen y z))
  clashes : ∀ x y z, (rule.clashes x y || rule.clashes (rule.chosen x y) z) =
    (rule.clashes y z || rule.clashes x (rule.chosen y z))

end MergeRule

section Merging

variable {κ α : Type} [DecidableEq κ] {rule : MergeRule α} {map first second third : OrderedMap κ α}
  {pairs : List (κ × α)}

/-- The map after an entry was added that the rule does not reject. -/
def addEntry (rule : MergeRule α) (map : OrderedMap κ α) (pair : κ × α) : OrderedMap κ α :=
  if rule.takes (map.find? pair.1) (some pair.2) then map.insert pair.1 pair.2 else map

/-- The first map with the entries of the second added one after the other. -/
def mergeBy (rule : MergeRule α) (first second : OrderedMap κ α) : OrderedMap κ α :=
  second.entries.foldl (addEntry rule) first

theorem find?_addEntry (rule : MergeRule α) (map : OrderedMap κ α) (pair : κ × α) (key : κ) :
    (addEntry rule map pair).find? key =
      if key = pair.1 then rule.chosen (map.find? key) (some pair.2) else map.find? key := by
  unfold addEntry MergeRule.chosen
  by_cases same : key = pair.1
  · subst same
    split <;> simp [find?_insert]
  · split <;> simp [find?_insert, same]

/-- The value listed under a key. -/
def listed? (pairs : List (κ × α)) (key : κ) : Option α :=
  (pairs.find? fun pair => pair.1 = key).map Prod.snd

theorem listed?_eq_none {key : κ} (absent : key ∉ pairs.map Prod.fst) :
    listed? pairs key = none := by
  simp only [listed?, Option.map_eq_none_iff, List.find?_eq_none, decide_eq_true_eq]
  rintro pair member rfl
  exact absent (List.mem_map_of_mem member)

theorem listed?_concat {pair : κ × α} (absent : pair.1 ∉ pairs.map Prod.fst) (key : κ) :
    listed? (pairs ++ [pair]) key = if key = pair.1 then some pair.2 else listed? pairs key := by
  by_cases same : key = pair.1
  · have missing := listed?_eq_none absent
    simp only [listed?, Option.map_eq_none_iff] at missing
    simp [listed?, List.find?_append, same, missing]
  · simp [listed?, List.find?_append, same, Ne.symm same]

omit [DecidableEq κ] in
theorem distinct_concat {pair : κ × α} (distinct : ((pairs ++ [pair]).map Prod.fst).Nodup) :
    (pairs.map Prod.fst).Nodup ∧ pair.1 ∉ pairs.map Prod.fst := by
  rw [List.map_append, List.nodup_append] at distinct
  exact ⟨distinct.1, fun member => distinct.2.2 _ member _ (by simp) rfl⟩

/-- Adding entries does to each key what adding the entry of that key does. -/
theorem find?_foldl_addEntry (distinct : (pairs.map Prod.fst).Nodup) (key : κ) :
    (pairs.foldl (addEntry rule) map).find? key =
      rule.chosen (map.find? key) (listed? pairs key) := by
  induction pairs using List.reverseRecOn with
  | nil => rfl
  | append_singleton done pair inductionHypothesis =>
    obtain ⟨earlierDistinct, absent⟩ := distinct_concat distinct
    rw [List.foldl_concat, find?_addEntry, inductionHypothesis earlierDistinct,
      listed?_concat absent]
    by_cases same : key = pair.1
    · rw [if_pos same, if_pos same, same, listed?_eq_none absent]
      rfl
    · rw [if_neg same, if_neg same]

/-- Entries that are not taken over stay in their places, and those that are taken come behind them
in their own order. -/
theorem entries_foldl_addEntry (distinct : (pairs.map Prod.fst).Nodup) :
    (pairs.foldl (addEntry rule) map).entries =
      (map.entries.filter fun entry =>
        !rule.takes (map.find? entry.1) (listed? pairs entry.1)) ++
      pairs.filter fun entry => rule.takes (map.find? entry.1) (listed? pairs entry.1) := by
  induction pairs using List.reverseRecOn with
  | nil => simp [listed?, MergeRule.takes]
  | append_singleton done pair inductionHypothesis =>
    obtain ⟨earlierDistinct, absent⟩ := distinct_concat distinct
    have merged := inductionHypothesis earlierDistinct
    have held : (done.foldl (addEntry rule) map).find? pair.1 = map.find? pair.1 := by
      rw [find?_foldl_addEntry earlierDistinct, listed?_eq_none absent]
      rfl
    have others : ∀ entry ∈ done, entry.1 ≠ pair.1 := by
      rintro entry member same
      exact absent (same ▸ List.mem_map_of_mem member)
    have doneKept : (done.filter fun entry =>
          rule.takes (map.find? entry.1) (listed? (done ++ [pair]) entry.1)) =
        done.filter fun entry => rule.takes (map.find? entry.1) (listed? done entry.1) := by
      apply List.filter_congr
      intro entry member
      rw [listed?_concat absent, if_neg (others entry member)]
    rw [List.foldl_concat, addEntry, held, List.filter_append, doneKept]
    cases taken : rule.takes (map.find? pair.1) (some pair.2) with
    | true =>
      have lastTaken : ([pair].filter fun entry =>
          rule.takes (map.find? entry.1) (listed? (done ++ [pair]) entry.1)) = [pair] := by
        simp [listed?_concat absent, taken]
      have mapKept : (map.entries.filter fun entry =>
            decide (entry.1 ≠ pair.1) &&
              !rule.takes (map.find? entry.1) (listed? done entry.1)) =
          map.entries.filter fun entry =>
            !rule.takes (map.find? entry.1) (listed? (done ++ [pair]) entry.1) := by
        apply List.filter_congr
        intro entry _
        rw [listed?_concat absent]
        by_cases same : entry.1 = pair.1
        · simp [same, taken]
        · simp [same]
      have doneApart : (done.filter fun entry =>
            decide (entry.1 ≠ pair.1) &&
              rule.takes (map.find? entry.1) (listed? done entry.1)) =
          done.filter fun entry => rule.takes (map.find? entry.1) (listed? done entry.1) := by
        apply List.filter_congr
        intro entry member
        simp [others entry member]
      rw [if_pos rfl, lastTaken]
      show (done.foldl (addEntry rule) map).entriesExcept pair.1 ++ [pair] = _
      rw [entriesExcept, merged, List.filter_append, List.filter_filter, List.filter_filter,
        mapKept, doneApart, List.append_assoc]
    | false =>
      have lastLeft : ([pair].filter fun entry =>
          rule.takes (map.find? entry.1) (listed? (done ++ [pair]) entry.1)) = [] := by
        simp [listed?_concat absent, taken]
      have mapKept : (map.entries.filter fun entry =>
            !rule.takes (map.find? entry.1) (listed? (done ++ [pair]) entry.1)) =
          map.entries.filter fun entry =>
            !rule.takes (map.find? entry.1) (listed? done entry.1) := by
        apply List.filter_congr
        intro entry _
        rw [listed?_concat absent]
        by_cases same : entry.1 = pair.1
        · rw [if_pos same, same, listed?_eq_none absent, taken]
          rfl
        · rw [if_neg same]
      rw [if_neg Bool.false_ne_true, merged, lastLeft, mapKept, List.append_nil]

/-- Whether the merge of two maps takes over what the second has under a key. -/
def takenAt (rule : MergeRule α) (first second : OrderedMap κ α) (key : κ) : Bool :=
  rule.takes (first.find? key) (second.find? key)

theorem find?_mergeBy (rule : MergeRule α) (first second : OrderedMap κ α) (key : κ) :
    (mergeBy rule first second).find? key =
      rule.chosen (first.find? key) (second.find? key) :=
  find?_foldl_addEntry second.keysDistinct key

theorem entries_mergeBy (rule : MergeRule α) (first second : OrderedMap κ α) :
    (mergeBy rule first second).entries =
      (first.entries.filter fun entry => !takenAt rule first second entry.1) ++
        second.entries.filter fun entry => takenAt rule first second entry.1 :=
  entries_foldl_addEntry second.keysDistinct

omit [DecidableEq κ] in
theorem eq_of_entries_eq (same : first.entries = second.entries) : first = second := by
  cases first
  cases second
  cases same
  rfl

/-- A rule that associates at every key makes merging associative, the order of the entries
included. -/
theorem mergeBy_assoc (associates : rule.Associates) (first second third : OrderedMap κ α) :
    mergeBy rule (mergeBy rule first second) third =
      mergeBy rule first (mergeBy rule second third) := by
  apply eq_of_entries_eq
  simp only [entries_mergeBy, List.filter_append, List.filter_filter, takenAt, find?_mergeBy,
    List.append_assoc]
  congr 1
  · apply List.filter_congr
    intro entry _
    rw [← associates.first, Bool.and_comm]
  congr 1
  · apply List.filter_congr
    intro entry _
    rw [Bool.and_comm, associates.second, Bool.and_comm]
  · apply List.filter_congr
    intro entry _
    rw [associates.third, Bool.and_comm]

/-! ## Merges that may fail -/

/-- Whether two maps are merged without a clash. -/
def Compatible (rule : MergeRule α) (first second : OrderedMap κ α) : Prop :=
  ∀ key, rule.clashes (first.find? key) (second.find? key) = false

/-- Whether a step that may fail adds entries as a rule says. -/
structure Follows {ε : Type} (rule : MergeRule α)
    (step : OrderedMap κ α → κ × α → Except ε (OrderedMap κ α)) : Prop where
  added : ∀ map pair, rule.clashes (map.find? pair.1) (some pair.2) = false →
    step map pair = .ok (addEntry rule map pair)
  clashed : ∀ map pair, rule.clashes (map.find? pair.1) (some pair.2) = true →
    ∃ failure, step map pair = .error failure

section Steps

variable {ε : Type} {step : OrderedMap κ α → κ × α → Except ε (OrderedMap κ α)}

theorem Follows.step_eq_ok (follows : Follows rule step) {pair : κ × α} :
    step map pair = .ok second ↔
      rule.clashes (map.find? pair.1) (some pair.2) = false ∧ addEntry rule map pair = second := by
  cases clash : rule.clashes (map.find? pair.1) (some pair.2) with
  | true =>
    obtain ⟨failure, failed⟩ := follows.clashed map pair clash
    simp [failed]
  | false => simp [follows.added map pair clash]

theorem Follows.foldlM_pairs_eq_ok (follows : Follows rule step)
    (distinct : (pairs.map Prod.fst).Nodup) :
    pairs.foldlM step map = .ok second ↔
      (∀ pair ∈ pairs, rule.clashes (map.find? pair.1) (some pair.2) = false) ∧
        pairs.foldl (addEntry rule) map = second := by
  induction pairs generalizing map with
  | nil => simp [pure, Except.pure]
  | cons pair rest inductionHypothesis =>
    rw [List.map_cons, List.nodup_cons] at distinct
    have unchanged : ∀ later ∈ rest,
        (addEntry rule map pair).find? later.1 = map.find? later.1 := by
      intro later member
      rw [find?_addEntry, if_neg]
      rintro same
      exact distinct.1 (same ▸ List.mem_map_of_mem member)
    have sameClashes : (∀ later ∈ rest,
          rule.clashes ((addEntry rule map pair).find? later.1) (some later.2) = false) ↔
        ∀ later ∈ rest, rule.clashes (map.find? later.1) (some later.2) = false := by
      refine forall₂_congr fun later member => ?_
      rw [unchanged later member]
    rw [List.foldlM_cons, Outcome.bind_eq_ok, List.forall_mem_cons, List.foldl_cons]
    constructor
    · rintro ⟨next, stepped, ran⟩
      obtain ⟨fits, rfl⟩ := follows.step_eq_ok.mp stepped
      obtain ⟨restFits, folded⟩ := (inductionHypothesis distinct.2).mp ran
      exact ⟨⟨fits, sameClashes.mp restFits⟩, folded⟩
    · rintro ⟨⟨fits, restFits⟩, folded⟩
      exact ⟨_, follows.step_eq_ok.mpr ⟨fits, rfl⟩,
        (inductionHypothesis distinct.2).mpr ⟨sameClashes.mpr restFits, folded⟩⟩

/-- Steps that follow a rule merge two maps unless they clash at a key. -/
theorem Follows.foldlM_eq_ok (follows : Follows rule step) :
    second.entries.foldlM step first = .ok third ↔
      Compatible rule first second ∧ mergeBy rule first second = third := by
  rw [follows.foldlM_pairs_eq_ok second.keysDistinct]
  refine and_congr_left fun _ => ⟨fun each key => ?_, fun compatible pair member => ?_⟩
  · cases found : second.find? key with
    | none => rfl
    | some added => exact each (key, added) (find?_eq_some_iff.mp found)
  · have found : second.find? pair.1 = some pair.2 := find?_eq_some_iff.mpr member
    rw [← found]
    exact compatible pair.1

end Steps

/-- Merges that succeed do so in both groupings of three operands. -/
theorem compatible_assoc (associates : rule.Associates) (first second third : OrderedMap κ α) :
    (Compatible rule first second ∧ Compatible rule (mergeBy rule first second) third) ↔
      (Compatible rule second third ∧ Compatible rule first (mergeBy rule second third)) := by
  have atKey : ∀ key, (rule.clashes (first.find? key) (second.find? key) = false ∧
      rule.clashes ((mergeBy rule first second).find? key) (third.find? key) = false) ↔
        (rule.clashes (second.find? key) (third.find? key) = false ∧
          rule.clashes (first.find? key) ((mergeBy rule second third).find? key) = false) := by
    intro key
    rw [find?_mergeBy, find?_mergeBy, ← Bool.or_eq_false_iff, ← Bool.or_eq_false_iff,
      associates.clashes]
  simp only [Compatible, ← forall_and, atKey]

end Merging

end OrderedMap

namespace Catalog

open OrderedMap Outcome

/-! ## The rules of the three maps -/

/-- A definition replaces a declaration, a declaration replaces nothing, and two definitions
clash. -/
def classRule : MergeRule ClassEntry
  | none, _ => .take
  | some (.declared _), .defined _ => .take
  | some _, .declared _ => .keep
  | some (.defined _), .defined _ => .clash

/-- A number stands for one function. -/
def functionRule : MergeRule (Option QualifiedName)
  | none, _ => .take
  | some _, _ => .clash

/-- A box keeps its value class. -/
def boxRule : MergeRule ClassId
  | none, _ => .take
  | some _, _ => .keep

theorem classRule_associates : classRule.Associates where
  first x y z := by
    rcases x with _ | _ | _ <;> rcases y with _ | _ | _ <;> rcases z with _ | _ | _ <;> rfl
  second x y z := by
    rcases x with _ | _ | _ <;> rcases y with _ | _ | _ <;> rcases z with _ | _ | _ <;> rfl
  third x y z := by
    rcases x with _ | _ | _ <;> rcases y with _ | _ | _ <;> rcases z with _ | _ | _ <;> rfl
  clashes x y z := by
    rcases x with _ | _ | _ <;> rcases y with _ | _ | _ <;> rcases z with _ | _ | _ <;> rfl

theorem functionRule_associates : functionRule.Associates where
  first x y z := by cases x <;> cases y <;> cases z <;> rfl
  second x y z := by cases x <;> cases y <;> cases z <;> rfl
  third x y z := by cases x <;> cases y <;> cases z <;> rfl
  clashes x y z := by cases x <;> cases y <;> cases z <;> rfl

theorem boxRule_associates : boxRule.Associates where
  first x y z := by cases x <;> cases y <;> cases z <;> rfl
  second x y z := by cases x <;> cases y <;> cases z <;> rfl
  third x y z := by cases x <;> cases y <;> cases z <;> rfl
  clashes x y z := by cases x <;> cases y <;> cases z <;> rfl

theorem classRule_follows :
    Follows classRule fun classes entry => mergeClass classes entry.1 entry.2 where
  added map entry fits := by
    obtain ⟨id, added⟩ := entry
    simp only [mergeClass, addEntry] at fits ⊢
    generalize map.find? id = held at fits ⊢
    rcases held with _ | _ | _ <;> cases added <;> first | rfl | cases fits
  clashed map entry clash := by
    obtain ⟨id, added⟩ := entry
    simp only [mergeClass] at clash ⊢
    generalize map.find? id = held at clash ⊢
    rcases held with _ | _ | _ <;> cases added <;> first | exact ⟨_, rfl⟩ | cases clash

theorem functionRule_follows :
    Follows functionRule fun functions entry => mergeFunction functions entry.1 entry.2 where
  added map entry fits := by
    simp only [mergeFunction, addEntry] at fits ⊢
    generalize map.find? entry.1 = held at fits ⊢
    cases held with
    | none => rfl
    | some _ => cases fits
  clashed map entry clash := by
    simp only [mergeFunction] at clash ⊢
    generalize map.find? entry.1 = held at clash ⊢
    cases held with
    | none => cases clash
    | some _ => exact ⟨_, rfl⟩

theorem mergeBox_eq_addEntry (boxes : OrderedMap ClassId ClassId) (entry : ClassId × ClassId) :
    mergeBox boxes entry.1 entry.2 = addEntry boxRule boxes entry := by
  rw [mergeBox, OrderedMap.contains, addEntry]
  cases boxes.find? entry.1 <;> rfl

/-! ## Merged catalogs -/

variable {first second merged : Catalog}

/-- The catalog that a merge leads to, if it leads to any. -/
def mergedWith (first second : Catalog) : Catalog where
  classes := mergeBy classRule first.classes second.classes
  functions := mergeBy functionRule first.functions second.functions
  valueBoxes := mergeBy boxRule first.valueBoxes second.valueBoxes

/-- Whether two catalogs can be merged. -/
def Mergeable (first second : Catalog) : Prop :=
  Compatible classRule first.classes second.classes ∧
    Compatible functionRule first.functions second.functions

theorem extend_eq_ok :
    first.extend second = .ok merged ↔
      first.Mergeable second ∧ first.mergedWith second = merged := by
  have boxes : second.valueBoxes.entries.foldl
        (fun boxes entry => mergeBox boxes entry.1 entry.2) first.valueBoxes =
      mergeBy boxRule first.valueBoxes second.valueBoxes := by
    simp only [mergeBox_eq_addEntry]
    rfl
  simp only [extend, bind_eq_ok, classRule_follows.foldlM_eq_ok, functionRule_follows.foldlM_eq_ok,
    pure_eq_ok, boxes, Mergeable, mergedWith]
  constructor
  · rintro ⟨_, ⟨classesFit, rfl⟩, _, ⟨functionsFit, rfl⟩, rfl⟩
    exact ⟨⟨classesFit, functionsFit⟩, rfl⟩
  · rintro ⟨⟨classesFit, functionsFit⟩, rfl⟩
    exact ⟨_, ⟨classesFit, rfl⟩, _, ⟨functionsFit, rfl⟩, rfl⟩

/-- A merge fails where both operands define a class or have a function under one number. -/
def ClashesWith (first second : Catalog) : Prop :=
  (∃ id, (first.definition? id).isSome ∧ (second.definition? id).isSome) ∨
    ∃ id, first.functions.contains id ∧ second.functions.contains id

theorem clashes_classRule (held added : Option ClassEntry) :
    classRule.clashes held added =
      ((held.bind ClassEntry.definition?).isSome &&
        (added.bind ClassEntry.definition?).isSome) := by
  rcases held with _ | _ | _ <;> rcases added with _ | _ | _ <;> rfl

theorem clashes_functionRule (held added : Option (Option QualifiedName)) :
    functionRule.clashes held added = (held.isSome && added.isSome) := by
  cases held <;> cases added <;> rfl

theorem mergeable_iff : first.Mergeable second ↔ ¬ first.ClashesWith second := by
  simp only [Mergeable, Compatible, ClashesWith, clashes_classRule, clashes_functionRule,
    definition?, OrderedMap.contains, not_or, not_exists, ← Bool.and_eq_true, Bool.not_eq_true]

theorem exists_extend_eq_error_iff :
    (∃ fault, first.extend second = .error fault) ↔ first.ClashesWith second := by
  constructor
  · rintro ⟨fault, failed⟩
    by_contra clashFree
    have succeeded := extend_eq_ok.mpr ⟨mergeable_iff.mpr clashFree, rfl⟩
    rw [failed] at succeeded
    cases succeeded
  · intro clash
    cases ended : first.extend second with
    | error fault => exact ⟨fault, rfl⟩
    | ok merged => exact absurd clash (mergeable_iff.mp (extend_eq_ok.mp ended).1)

theorem mergeable_assoc (first second third : Catalog) :
    (first.Mergeable second ∧ (first.mergedWith second).Mergeable third) ↔
      (second.Mergeable third ∧ first.Mergeable (second.mergedWith third)) := by
  have classes := compatible_assoc classRule_associates first.classes second.classes third.classes
  have functions :=
    compatible_assoc functionRule_associates first.functions second.functions third.functions
  simp only [Mergeable, mergedWith]
  tauto

/-- Grouping three catalogs either way, the merges succeed with the same result or one of them fails
in both groupings. -/
theorem toOption_extend_assoc (first second third : Catalog) :
    (first.extend second >>= fun merged => merged.extend third).toOption =
      (second.extend third >>= fun merged => first.extend merged).toOption := by
  have sameResult : (first.mergedWith second).mergedWith third =
      first.mergedWith (second.mergedWith third) := by
    simp only [mergedWith, mergeBy_assoc classRule_associates,
      mergeBy_assoc functionRule_associates, mergeBy_assoc boxRule_associates]
  apply toOption_congr
  intro result
  simp only [bind_eq_ok, extend_eq_ok]
  constructor
  · rintro ⟨_, ⟨fits, rfl⟩, laterFits, rfl⟩
    have regrouped := (mergeable_assoc first second third).mp ⟨fits, laterFits⟩
    exact ⟨_, ⟨regrouped.1, rfl⟩, regrouped.2, sameResult.symm⟩
  · rintro ⟨_, ⟨fits, rfl⟩, laterFits, rfl⟩
    have regrouped := (mergeable_assoc first second third).mpr ⟨fits, laterFits⟩
    exact ⟨_, ⟨regrouped.1, rfl⟩, regrouped.2, sameResult⟩

/-! ## Main result -/

/-- What a merge leaves of its operands: everything is still there, the definition of a class stands
wherever one of them has it, and otherwise what the first operand has comes before what the second
has. -/
structure KeepsBoth (first second merged : Catalog) : Prop where
  classes : ∀ id, merged.classes.contains id =
    (first.classes.contains id || second.classes.contains id)
  definitions : ∀ id, merged.definition? id = (first.definition? id).or (second.definition? id)
  declarations : ∀ id, merged.definition? id = none →
    merged.classes.find? id = (first.classes.find? id).or (second.classes.find? id)
  functions : ∀ id, merged.functions.find? id =
    (first.functions.find? id).or (second.functions.find? id)
  boxes : ∀ box, merged.boxedClass? box = (first.boxedClass? box).or (second.boxedClass? box)

theorem keepsBoth_mergedWith (first second : Catalog) :
    KeepsBoth first second (first.mergedWith second) where
  classes id := by
    simp only [mergedWith, OrderedMap.contains, find?_mergeBy]
    rcases first.classes.find? id with _ | _ | _ <;>
      rcases second.classes.find? id with _ | _ | _ <;> rfl
  definitions id := by
    simp only [definition?, mergedWith, find?_mergeBy]
    rcases first.classes.find? id with _ | _ | _ <;>
      rcases second.classes.find? id with _ | _ | _ <;> rfl
  declarations id undefined := by
    simp only [definition?, mergedWith, find?_mergeBy] at undefined ⊢
    generalize first.classes.find? id = held at undefined ⊢
    generalize second.classes.find? id = added at undefined ⊢
    rcases held with _ | _ | _ <;> rcases added with _ | _ | _ <;> first | rfl | cases undefined
  functions id := by
    simp only [mergedWith, find?_mergeBy]
    cases first.functions.find? id <;> cases second.functions.find? id <;> rfl
  boxes box := by
    simp only [boxedClass?, mergedWith, find?_mergeBy]
    cases first.valueBoxes.find? box <;> cases second.valueBoxes.find? box <;> rfl

/-- Merging is associative, up to which of several clashes is reported; it fails exactly where the
operands clash, and otherwise keeps what both of them have. -/
theorem extend_assoc_and_keepsBoth (first second third : Catalog) :
    (first.extend second >>= fun merged => merged.extend third).toOption =
        (second.extend third >>= fun merged => first.extend merged).toOption ∧
      ((∃ fault, first.extend second = .error fault) ↔ first.ClashesWith second) ∧
      ∀ merged, first.extend second = .ok merged → KeepsBoth first second merged := by
  refine ⟨toOption_extend_assoc first second third, exists_extend_eq_error_iff, ?_⟩
  intro merged succeeded
  rw [← (extend_eq_ok.mp succeeded).2]
  exact keepsBoth_mergedWith first second

end Catalog

end TypeRecords
