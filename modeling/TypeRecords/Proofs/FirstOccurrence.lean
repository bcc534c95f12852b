import Mathlib.Data.List.Induction
import Mathlib.Data.List.Nodup

/-!
First occurrences in a list.

Owns the laws of `List.eraseDups`, which keeps every item of a list where it comes first. Walks that
leave out what they have met before answer such a list. Two lists with the same first occurrences
are the same to every search from the front, and stay so when lists are joined behind them or in
front of them. Owns also what it means for an item to be the first with a property, and which items
stand in front of another one.
-/

namespace TypeRecords

/-- Whether an item is the first of a list with a property. -/
inductive IsFirst {α : Type} (holds : α → Prop) : List α → α → Prop
  | here {item : α} {rest : List α} (found : holds item) : IsFirst holds (item :: rest) item
  | later {passed item : α} {rest : List α} (without : ¬ holds passed)
      (further : IsFirst holds rest item) : IsFirst holds (passed :: rest) item

namespace IsFirst

variable {α : Type} {holds : α → Prop} {items before after : List α} {item other : α}

theorem holds_item (first : IsFirst holds items item) : holds item := by
  induction first with
  | here found => exact found
  | later _ _ inductionHypothesis => exact inductionHypothesis

theorem mem (first : IsFirst holds items item) : item ∈ items := by
  induction first with
  | here _ => exact List.mem_cons_self
  | later _ _ inductionHypothesis => exact List.mem_cons_of_mem _ inductionHypothesis

theorem unique (first : IsFirst holds items item) (again : IsFirst holds items other) :
    item = other := by
  induction first with
  | here found =>
    cases again with
    | here _ => rfl
    | later without _ => exact absurd found without
  | later without _ inductionHypothesis =>
    cases again with
    | here found => exact absurd found without
    | later _ further => exact inductionHypothesis further

theorem of_append (without : ∀ passed ∈ before, ¬ holds passed) (found : holds item) :
    IsFirst holds (before ++ item :: after) item := by
  induction before with
  | nil => exact .here found
  | cons passed rest inductionHypothesis =>
    rw [List.forall_mem_cons] at without
    exact .later without.1 (inductionHypothesis without.2)

end IsFirst

namespace FirstOccurrence

variable {α β : Type}

theorem findSome?_flatMap {γ : Type} (items : List γ) (next : γ → List α)
    (answer : α → Option β) :
    (items.flatMap next).findSome? answer =
      items.findSome? fun item => (next item).findSome? answer := by
  induction items with
  | nil => rfl
  | cons item rest inductionHypothesis =>
    rw [List.flatMap_cons, List.findSome?_append, List.findSome?_cons, inductionHypothesis]
    cases (next item).findSome? answer <;> rfl

variable [DecidableEq α]

/-- An item at the end is a first occurrence unless it is known already. The other laws follow from
this one by adding items at the end. -/
theorem eraseDups_concat (items : List α) (last : α) :
    (items ++ [last]).eraseDups =
      if last ∈ items then items.eraseDups else items.eraseDups ++ [last] := by
  rw [List.eraseDups_append]
  by_cases known : last ∈ items
  · simp [List.removeAll, known]
  · simp [List.removeAll, known, List.eraseDups_cons]

theorem nodup_eraseDups (items : List α) : items.eraseDups.Nodup := by
  induction items using List.reverseRecOn with
  | nil => simp
  | append_singleton items last inductionHypothesis =>
    rw [eraseDups_concat]
    by_cases known : last ∈ items
    · simpa [known] using inductionHypothesis
    · rw [if_neg known]
      apply List.Nodup.append inductionHypothesis (List.nodup_singleton _)
      simpa using known

/-- Nothing is left out of a list without repetition. -/
theorem eraseDups_eq_self {items : List α} (distinct : items.Nodup) : items.eraseDups = items := by
  induction items using List.reverseRecOn with
  | nil => rfl
  | append_singleton items last inductionHypothesis =>
    rw [List.nodup_append] at distinct
    have isNew : last ∉ items := fun known => distinct.2.2 last known last (by simp) rfl
    rw [eraseDups_concat, if_neg isNew, inductionHypothesis distinct.1]

/-- What is known already adds no first occurrence. -/
theorem eraseDups_append_of_subset {first second : List α} (known : second ⊆ first) :
    (first ++ second).eraseDups = first.eraseDups := by
  induction second using List.reverseRecOn with
  | nil => simp
  | append_singleton items last inductionHypothesis =>
    have lastKnown : last ∈ first := known (by simp)
    have itemsKnown : items ⊆ first := fun item member => known (by simp [member])
    rw [← List.append_assoc, eraseDups_concat, if_pos (by simp [lastKnown]),
      inductionHypothesis itemsKnown]

/-- A longer list begins with the same first occurrences. -/
theorem eraseDups_prefix_append (first second : List α) :
    first.eraseDups <+: (first ++ second).eraseDups := by
  rw [List.eraseDups_append]
  exact List.prefix_append _ _

theorem eraseDups_eraseDups_append (first second : List α) :
    (first.eraseDups ++ second).eraseDups = (first ++ second).eraseDups := by
  induction second using List.reverseRecOn with
  | nil => simp [eraseDups_eq_self (nodup_eraseDups first)]
  | append_singleton items last inductionHypothesis =>
    rw [← List.append_assoc, ← List.append_assoc, eraseDups_concat, eraseDups_concat,
      inductionHypothesis]
    simp only [List.mem_append, List.mem_eraseDups]

theorem eraseDups_append_eraseDups (first second : List α) :
    (first ++ second.eraseDups).eraseDups = (first ++ second).eraseDups := by
  induction second using List.reverseRecOn with
  | nil => simp
  | append_singleton items last inductionHypothesis =>
    rw [eraseDups_concat, ← List.append_assoc first items, eraseDups_concat]
    by_cases known : last ∈ items
    · rw [if_pos known, if_pos (by simp [known]), inductionHypothesis]
    · rw [if_neg known, ← List.append_assoc, eraseDups_concat, inductionHypothesis]
      simp only [List.mem_append, List.mem_eraseDups]

/-- Lists with the same first occurrences may be exchanged inside a longer list. -/
theorem eraseDups_append_congr {first first' second second' : List α}
    (sameFirst : first.eraseDups = first'.eraseDups)
    (sameSecond : second.eraseDups = second'.eraseDups) :
    (first ++ second).eraseDups = (first' ++ second').eraseDups := by
  rw [← eraseDups_eraseDups_append, ← eraseDups_append_eraseDups, sameFirst, sameSecond,
    eraseDups_append_eraseDups, eraseDups_eraseDups_append]

section Maps

variable {γ : Type} [DecidableEq β]

theorem eraseDups_flatMap_congr {items : List γ} {left right : γ → List β}
    (same : ∀ item ∈ items, (left item).eraseDups = (right item).eraseDups) :
    (items.flatMap left).eraseDups = (items.flatMap right).eraseDups := by
  induction items with
  | nil => rfl
  | cons item rest inductionHypothesis =>
    rw [List.forall_mem_cons] at same
    rw [List.flatMap_cons, List.flatMap_cons]
    exact eraseDups_append_congr same.1 (inductionHypothesis same.2)

/-- An item that comes again leads to nothing new. -/
theorem eraseDups_flatMap_eraseDups (items : List α) (next : α → List β) :
    (items.eraseDups.flatMap next).eraseDups = (items.flatMap next).eraseDups := by
  induction items using List.reverseRecOn with
  | nil => rfl
  | append_singleton items last inductionHypothesis =>
    rw [eraseDups_concat, List.flatMap_append]
    by_cases known : last ∈ items
    · have nothingNew : [last].flatMap next ⊆ items.flatMap next := by
        intro item member
        simp only [List.flatMap_singleton] at member
        exact List.mem_flatMap.mpr ⟨last, known, member⟩
      rw [if_pos known, eraseDups_append_of_subset nothingNew, inductionHypothesis]
    · rw [if_neg known, List.flatMap_append]
      exact eraseDups_append_congr inductionHypothesis rfl

end Maps

/-- A search from the front sees first occurrences only. -/
theorem findSome?_eraseDups (items : List α) (answer : α → Option β) :
    items.eraseDups.findSome? answer = items.findSome? answer := by
  induction items using List.reverseRecOn with
  | nil => rfl
  | append_singleton items last inductionHypothesis =>
    rw [eraseDups_concat, List.findSome?_append]
    by_cases known : last ∈ items
    · rw [if_pos known, inductionHypothesis]
      cases earlier : items.findSome? answer with
      | some value => rfl
      | none => simp [List.findSome?_eq_none_iff.mp earlier last known]
    · rw [if_neg known, List.findSome?_append, inductionHypothesis]

/-- The items in front of one in a list without repetition. -/
theorem idxOf_lt_idxOf_iff_mem {front back : List α} {item other : α}
    (distinct : (front ++ item :: back).Nodup) :
    (front ++ item :: back).idxOf other < (front ++ item :: back).idxOf item ↔ other ∈ front := by
  have isNew : item ∉ front := fun early =>
    List.disjoint_of_nodup_append distinct early List.mem_cons_self
  have place : (front ++ item :: back).idxOf item = front.length := by
    rw [List.idxOf_append_of_notMem isNew, List.idxOf_cons_self, Nat.add_zero]
  rw [place]
  by_cases member : other ∈ front
  · rw [List.idxOf_append_of_mem member]
    exact iff_of_true (List.idxOf_lt_length_of_mem member) member
  · rw [List.idxOf_append_of_notMem member]
    exact iff_of_false (by omega) member

end FirstOccurrence

end TypeRecords
