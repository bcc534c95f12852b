import Mathlib.Data.Set.Finite.Basic
import Mathlib.Logic.Relation
import Mathlib.Order.WellFounded
import TypeRecords.Schedule

/-!
What a schedule promises.

Owns four facts about the rounds of `Task.schedule`: no task is lost or done twice, a need that
is itself to be done stands in an earlier round, every task left over needs another one that is left
over, and the number of a round is the length of the longest chain of needs that ends at its tasks.
The third makes a remainder the sign of a circle behind all that is left over, because the tasks are
finitely many. The last makes the schedule independent of the order in which the tasks are given.
-/

namespace TypeRecords

namespace Task

variable {α : Type} [DecidableEq α]

/-! ## One round -/

theorem mem_ready {remaining : List (Task α)} {task : Task α} :
    task ∈ ready remaining ↔
      task ∈ remaining ∧ ∀ need ∈ task.needs, need ∉ remaining.map Task.item := by
  rw [ready, List.mem_filter, isReady]
  simp only [List.all_eq_true, decide_eq_true_eq, List.mem_map, not_exists, not_and]

theorem mem_waiting {remaining : List (Task α)} {task : Task α} :
    task ∈ waiting remaining ↔ task ∈ remaining ∧ task ∉ ready remaining := by
  rw [waiting, ready, List.mem_filter, List.mem_filter]
  by_cases free : isReady remaining task <;> simp [free]

theorem ready_append_waiting_perm (remaining : List (Task α)) :
    (ready remaining ++ waiting remaining).Perm remaining :=
  List.filter_append_perm _ _

/-! ## All rounds -/

/-- The rounds and the remainder have exactly the items of the given tasks. -/
theorem schedule_perm (atMost : α → α → Bool) (remaining : List (Task α)) :
    ((schedule atMost remaining).1 ++ (schedule atMost remaining).2.map Task.item).Perm
      (remaining.map Task.item) := by
  fun_induction schedule atMost remaining with
  | case1 remaining blocked => exact List.Perm.refl _
  | case2 remaining progress round later stuck rest inductionHypothesis =>
    rw [rest] at inductionHypothesis
    rw [List.append_assoc]
    have sortedRound : round.Perm ((ready remaining).map Task.item) :=
      List.mergeSort_perm _ _
    refine (sortedRound.append inductionHypothesis).trans ?_
    rw [← List.map_append]
    exact (ready_append_waiting_perm remaining).map _

/-- The rounds split in front of every scheduled item, so that its needs stand in the first part.
Needs that are not to be done at all do not matter. -/
theorem exists_split_of_mem_schedule (atMost : α → α → Bool) (remaining : List (Task α))
    {task : Task α} (member : task ∈ remaining)
    (scheduled : task.item ∈ (schedule atMost remaining).1)
    (distinct : (remaining.map Task.item).Nodup) :
    ∃ front back, (schedule atMost remaining).1 = front ++ back ∧ task.item ∈ back ∧
      ∀ need ∈ task.needs, need ∈ remaining.map Task.item → need ∈ front := by
  fun_induction schedule atMost remaining with
  | case1 remaining blocked => cases scheduled
  | case2 remaining progress round later stuck rest inductionHypothesis =>
    have inRound : ∀ item, item ∈ round ↔ item ∈ (ready remaining).map Task.item :=
      fun item => List.mem_mergeSort
    by_cases free : task ∈ ready remaining
    · -- A ready task has no needs that remain, so the split may be at the very front.
      refine ⟨[], round ++ later, rfl, ?_, ?_⟩
      · exact List.mem_append_left _ ((inRound _).mpr (List.mem_map_of_mem free))
      · intro need needed present
        exact absurd present ((mem_ready.mp free).2 need needed)
    · -- A waiting task is split off in a later round, and this round goes in front.
      have waits : task ∈ waiting remaining := mem_waiting.mpr ⟨member, free⟩
      have parts :
          ((ready remaining).map Task.item ++ (waiting remaining).map Task.item).Nodup := by
        rw [← List.map_append]
        exact ((ready_append_waiting_perm remaining).map _).nodup_iff.mpr distinct
      have later_mem : task.item ∈ later := by
        rcases List.mem_append.mp scheduled with early | late
        · have clash := List.disjoint_of_nodup_append parts ((inRound _).mp early)
          exact absurd (List.mem_map_of_mem waits) clash
        · exact late
      simp only [rest] at inductionHypothesis
      obtain ⟨front, back, split, behind, needsFirst⟩ :=
        inductionHypothesis waits later_mem (List.nodup_append.mp parts).2.1
      refine ⟨round ++ front, back, by simp [split], behind, ?_⟩
      intro need needed present
      have whole : need ∈ (ready remaining ++ waiting remaining).map Task.item :=
        ((ready_append_waiting_perm remaining).map _).mem_iff.mpr present
      rw [List.map_append, List.mem_append] at whole
      rcases whole with early | late
      · exact List.mem_append_left _ ((inRound need).mpr early)
      · exact List.mem_append_right _ (needsFirst need needed late)

/-- A scheduled item stands strictly behind each of its needs. -/
theorem idxOf_lt_idxOf_of_mem_schedule (atMost : α → α → Bool) {remaining : List (Task α)}
    {task : Task α} (member : task ∈ remaining)
    (scheduled : task.item ∈ (schedule atMost remaining).1)
    (distinct : (remaining.map Task.item).Nodup) {need : α} (needed : need ∈ task.needs)
    (present : need ∈ remaining.map Task.item) :
    (schedule atMost remaining).1.idxOf need < (schedule atMost remaining).1.idxOf task.item := by
  obtain ⟨front, back, split, behind, needsFirst⟩ :=
    exists_split_of_mem_schedule atMost remaining member scheduled distinct
  have orderNodup : (front ++ back).Nodup := by
    rw [← split]
    exact (List.nodup_append.mp ((schedule_perm atMost remaining).nodup_iff.mpr distinct)).1
  have inFront := needsFirst need needed present
  have notInFront : task.item ∉ front :=
    fun early => List.disjoint_of_nodup_append orderNodup early behind
  rw [split, List.idxOf_append, List.idxOf_append, if_pos inFront, if_neg notInFront]
  have bound := List.idxOf_lt_length_of_mem inFront
  omega

/-- What is left over waits for something that is left over. -/
theorem exists_need_of_mem_stuck (atMost : α → α → Bool) (remaining : List (Task α)) {task : Task α}
    (left : task ∈ (schedule atMost remaining).2) :
    ∃ need ∈ task.needs, need ∈ (schedule atMost remaining).2.map Task.item := by
  fun_induction schedule atMost remaining with
  | case1 remaining blocked =>
    by_contra free
    push Not at free
    have isReady : task ∈ ready remaining := mem_ready.mpr ⟨left, free⟩
    rw [blocked] at isReady
    cases isReady
  | case2 remaining progress round later stuck rest =>
    rename_i inductionHypothesis
    rw [rest] at inductionHypothesis
    exact inductionHypothesis left

theorem stuck_subset (atMost : α → α → Bool) (remaining : List (Task α)) :
    (schedule atMost remaining).2 ⊆ remaining := by
  fun_induction schedule atMost remaining with
  | case1 remaining blocked => exact List.Subset.refl _
  | case2 remaining progress round later stuck rest =>
    rename_i inductionHypothesis
    rw [rest] at inductionHypothesis
    intro task left
    exact (mem_waiting.mp (inductionHypothesis left)).1

/-- Nothing is left over where all needs of a task have smaller numbers. -/
theorem stuck_eq_nil_of_lt (atMost : Nat → Nat → Bool) {remaining : List (Task Nat)}
    (smaller : ∀ task ∈ remaining, ∀ need ∈ task.needs, need < task.item) :
    (schedule atMost remaining).2 = [] := by
  have noneLeft : ∀ number, ∀ task ∈ (schedule atMost remaining).2, task.item ≠ number := by
    intro number
    induction number using Nat.strong_induction_on with
    | _ number inductionHypothesis =>
      rintro task left rfl
      -- What is left over needs something smaller that is left over too.
      obtain ⟨need, needed, needLeft⟩ := exists_need_of_mem_stuck atMost remaining left
      obtain ⟨other, otherLeft, same⟩ := List.mem_map.mp needLeft
      have below := smaller task (stuck_subset atMost remaining left) need needed
      exact inductionHypothesis need below other otherLeft same
  apply List.eq_nil_iff_forall_not_mem.mpr
  intro task left
  exact noneLeft task.item task left rfl

/-! ## Chains of needs -/

/-- A chain of that many needs, each of the next item, that ends at an item to be done. -/
inductive ChainTo (remaining : List (Task α)) : Nat → α → Prop
  | start {task : Task α} (member : task ∈ remaining) : ChainTo remaining 0 task.item
  | step {task : Task α} {need : α} {length : Nat} (member : task ∈ remaining)
      (needed : need ∈ task.needs) (before : ChainTo remaining length need) :
      ChainTo remaining (length + 1) task.item

/-- Whether the longest chain that ends at an item has that many needs. -/
structure Depth (remaining : List (Task α)) (item : α) (length : Nat) : Prop where
  reached : ChainTo remaining length item
  longest : ∀ {other}, ChainTo remaining other item → other ≤ length

omit [DecidableEq α] in
theorem ChainTo.mem {remaining : List (Task α)} {length : Nat} {item : α}
    (chain : ChainTo remaining length item) : item ∈ remaining.map Task.item := by
  cases chain with
  | start member => exact List.mem_map_of_mem member
  | step member => exact List.mem_map_of_mem member

/-- A task with a need to be done waits for the next round. -/
theorem mem_waiting_of_mem_needs {remaining : List (Task α)} {task : Task α} {need : α}
    (member : task ∈ remaining) (needed : need ∈ task.needs)
    (present : need ∈ remaining.map Task.item) : task ∈ waiting remaining := by
  have notReady : task ∉ ready remaining := fun free => (mem_ready.mp free).2 need needed present
  exact mem_waiting.mpr ⟨member, notReady⟩

/-- A round takes the first item off every chain. -/
theorem chainTo_waiting {remaining : List (Task α)} {length : Nat} {item : α} :
    ChainTo (waiting remaining) length item ↔ ChainTo remaining (length + 1) item := by
  constructor
  · intro chain
    induction chain with
    | @start task member =>
      have waits := mem_waiting.mp member
      have blocked : ∃ need ∈ task.needs, need ∈ remaining.map Task.item := by
        by_contra free
        push Not at free
        exact waits.2 (mem_ready.mpr ⟨waits.1, free⟩)
      obtain ⟨need, needed, present⟩ := blocked
      obtain ⟨first, firstMember, rfl⟩ := List.mem_map.mp present
      exact .step waits.1 needed (.start firstMember)
    | step member needed _ inductionHypothesis =>
      exact .step (mem_waiting.mp member).1 needed inductionHypothesis
  · intro chain
    induction length generalizing item with
    | zero =>
      cases chain with
      | step member needed before =>
        exact .start (mem_waiting_of_mem_needs member needed before.mem)
    | succ length inductionHypothesis =>
      cases chain with
      | step member needed before =>
        have waits := mem_waiting_of_mem_needs member needed before.mem
        exact .step waits needed (inductionHypothesis before)

/-- What is ready ends no chain but that of itself. -/
theorem depth_of_mem_ready {remaining : List (Task α)} (distinct : (remaining.map Task.item).Nodup)
    {task : Task α} (free : task ∈ ready remaining) : Depth remaining task.item 0 := by
  have present := mem_ready.mp free
  refine ⟨.start present.1, fun {other} chain => ?_⟩
  cases other with
  | zero => exact Nat.le_refl 0
  | succ length =>
    have waits := (chainTo_waiting.mpr chain).mem
    obtain ⟨same, sameWaits, sameItem⟩ := List.mem_map.mp waits
    have sameTask : same = task :=
      List.inj_on_of_nodup_map distinct (mem_waiting.mp sameWaits).1 present.1 sameItem
    rw [sameTask] at sameWaits
    exact absurd free (mem_waiting.mp sameWaits).2

/-- What waits has one need more in front of it than in the next round. -/
theorem depth_of_depth_waiting {remaining : List (Task α)} {item : α} {length : Nat}
    (later : Depth (waiting remaining) item length) : Depth remaining item (length + 1) := by
  refine ⟨chainTo_waiting.mp later.reached, fun {other} chain => ?_⟩
  cases other with
  | zero => omega
  | succ other =>
    have shorter := later.longest (chainTo_waiting.mpr chain)
    omega

omit [DecidableEq α] in
theorem Depth.unique {remaining : List (Task α)} {item : α} {first second : Nat}
    (firstDepth : Depth remaining item first) (secondDepth : Depth remaining item second) :
    first = second :=
  Nat.le_antisymm (secondDepth.longest firstDepth.reached) (firstDepth.longest secondDepth.reached)

/-- Everything that is scheduled has a depth. -/
theorem exists_depth_of_mem_schedule (atMost : α → α → Bool) (remaining : List (Task α))
    (distinct : (remaining.map Task.item).Nodup) :
    ∀ item ∈ (schedule atMost remaining).1, ∃ length, Depth remaining item length := by
  fun_induction schedule atMost remaining with
  | case1 remaining blocked => simp
  | case2 remaining progress round later stuck rest inductionHypothesis =>
    have waitingDistinct : ((waiting remaining).map Task.item).Nodup :=
      distinct.sublist (List.filter_sublist.map Task.item)
    simp only [rest] at inductionHypothesis
    intro item member
    rcases List.mem_append.mp member with early | late
    · obtain ⟨task, free, rfl⟩ := List.mem_map.mp (List.mem_mergeSort.mp early)
      exact ⟨0, depth_of_mem_ready distinct free⟩
    · obtain ⟨length, depth⟩ := inductionHypothesis waitingDistinct item late
      exact ⟨length + 1, depth_of_depth_waiting depth⟩

/-- The rounds go by depth, and each of them is sorted. -/
theorem schedule_pairwise {atMost : α → α → Bool}
    (transitive : ∀ first second third, atMost first second → atMost second third →
      atMost first third)
    (total : ∀ first second, atMost first second || atMost second first)
    {remaining : List (Task α)} (distinct : (remaining.map Task.item).Nodup) :
    (schedule atMost remaining).1.Pairwise fun first second =>
      ∀ firstDepth secondDepth, Depth remaining first firstDepth →
        Depth remaining second secondDepth →
          firstDepth < secondDepth ∨ firstDepth = secondDepth ∧ atMost first second := by
  fun_induction schedule atMost remaining with
  | case1 remaining blocked => exact .nil
  | case2 remaining progress round later stuck rest inductionHypothesis =>
    have waitingDistinct : ((waiting remaining).map Task.item).Nodup :=
      distinct.sublist (List.filter_sublist.map Task.item)
    have laterDepth := exists_depth_of_mem_schedule atMost (waiting remaining) waitingDistinct
    simp only [rest] at inductionHypothesis laterDepth
    have inRound : ∀ item ∈ round, Depth remaining item 0 := by
      intro item early
      obtain ⟨task, free, rfl⟩ := List.mem_map.mp (List.mem_mergeSort.mp early)
      exact depth_of_mem_ready distinct free
    have sorted : round.Pairwise fun first second => atMost first second = true :=
      List.pairwise_mergeSort transitive total _
    refine List.pairwise_append.mpr ⟨?_, ?_, ?_⟩
    · apply sorted.imp_of_mem
      intro first second firstEarly secondEarly before m n firstDepth secondDepth
      have firstZero := firstDepth.unique (inRound first firstEarly)
      have secondZero := secondDepth.unique (inRound second secondEarly)
      exact .inr ⟨by omega, before⟩
    · apply (inductionHypothesis waitingDistinct).imp_of_mem
      intro first second firstLate secondLate before m n firstDepth secondDepth
      -- Both are one deeper than in the next round.
      obtain ⟨m', firstLater⟩ := laterDepth first firstLate
      obtain ⟨n', secondLater⟩ := laterDepth second secondLate
      have firstSame := firstDepth.unique (depth_of_depth_waiting firstLater)
      have secondSame := secondDepth.unique (depth_of_depth_waiting secondLater)
      rcases before m' n' firstLater secondLater with shallower | ⟨same, inOrder⟩
      · exact .inl (by omega)
      · exact .inr ⟨by omega, inOrder⟩
    · intro first early second late m n firstDepth secondDepth
      obtain ⟨n', secondLater⟩ := laterDepth second late
      have firstZero := firstDepth.unique (inRound first early)
      have secondSame := secondDepth.unique (depth_of_depth_waiting secondLater)
      exact .inl (by omega)

end Task

/-! ## Circles -/

/-- In a finite list where everything is preceded by something else of the list, everything is
reached from something that precedes itself along a path. -/
theorem exists_circle_behind {α : Type} (precedes : α → α → Prop) {items : List α}
    (preceded : ∀ item ∈ items, ∃ earlier ∈ items, precedes earlier item) {item : α}
    (member : item ∈ items) :
    ∃ other, Relation.ReflTransGen precedes other item ∧
      Relation.TransGen precedes other other := by
  by_contra noCircle
  push Not at noCircle
  let Behind := {other // other ∈ items ∧ Relation.ReflTransGen precedes other item}
  let path (first second : Behind) : Prop := Relation.TransGen precedes first.1 second.1
  have : IsTrans Behind path := ⟨fun _ _ _ => Relation.TransGen.trans⟩
  have : Std.Irrefl path := ⟨fun other => noCircle other.1 other.2.2⟩
  have : Finite Behind :=
    ((List.finite_toSet items).subset fun _ behind => behind.1).to_subtype
  -- Paths are a strict order on a finite type, so some item has nothing before it.
  have wellFounded : WellFounded path := Finite.wellFounded_of_trans_of_irrefl path
  obtain ⟨⟨least, leastMember, reached⟩, _, minimal⟩ :=
    wellFounded.has_min Set.univ ⟨⟨item, member, .refl⟩, trivial⟩
  obtain ⟨earlier, earlierMember, related⟩ := preceded least leastMember
  exact minimal ⟨earlier, earlierMember, reached.head related⟩ trivial (.single related)

end TypeRecords
