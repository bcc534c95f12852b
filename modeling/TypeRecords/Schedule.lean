/-!
Ordering tasks behind what they need.

A schedule is worked out in rounds. Each round takes every task none of whose needs is still to be
done, sorted by a given order, and leaves the others for the next. When a round takes nothing, what
is left waits for itself.
-/

namespace TypeRecords

universe u

/-- Something to be done after everything it needs. -/
structure Task (α : Type u) where
  item : α
  needs : List α
deriving DecidableEq, Repr

namespace Task

variable {α : Type u} [DecidableEq α]

/-- Whether no need is among the items still to be done. -/
def isReady (remaining : List (Task α)) (task : Task α) : Bool :=
  task.needs.all fun need => remaining.all fun other => other.item ≠ need

/-- The tasks of the next round. -/
def ready (remaining : List (Task α)) : List (Task α) :=
  remaining.filter (isReady remaining)

/-- The tasks left for later rounds. -/
def waiting (remaining : List (Task α)) : List (Task α) :=
  remaining.filter fun task => !isReady remaining task

theorem length_waiting_lt {remaining : List (Task α)} (progress : ready remaining ≠ []) :
    (waiting remaining).length < remaining.length := by
  obtain ⟨task, member⟩ := List.exists_mem_of_ne_nil _ progress
  rw [ready, List.mem_filter] at member
  apply List.length_filter_lt_length_iff_exists.mpr
  exact ⟨task, member.1, by simp [member.2]⟩

/-- The items in order, round after round, and the tasks that wait for each other. -/
def schedule (atMost : α → α → Bool) (remaining : List (Task α)) :
    List α × List (Task α) :=
  if _ : ready remaining = [] then ([], remaining)
  else
    let round := ((ready remaining).map Task.item).mergeSort atMost
    let (later, stuck) := schedule atMost (waiting remaining)
    (round ++ later, stuck)
termination_by remaining.length
decreasing_by exact length_waiting_lt ‹_›

end Task

end TypeRecords
