import Mathlib.Data.List.Forall2

/-!
Successful runs of fallible computations.

Owns the inversion of every way in which fallible steps are put together: a composed computation
succeeds exactly when its parts do, one after the other. Proofs about such a computation take it
apart with these statements and never unfold the composition itself.
-/

namespace TypeRecords

namespace Outcome

variable {ε δ α β : Type}

/-! ## Plain results -/

theorem bind_eq_ok {result : Except ε α} {next : α → Except ε β} {value : β} :
    result >>= next = .ok value ↔ ∃ first, result = .ok first ∧ next first = .ok value := by
  cases result with
  | error failure =>
    constructor
    · intro succeeded
      cases succeeded
    · rintro ⟨first, failed, _⟩
      cases failed
  | ok first =>
    constructor
    · intro succeeded
      exact ⟨first, rfl, succeeded⟩
    · rintro ⟨other, same, succeeded⟩
      cases same
      exact succeeded

theorem ok_bind {first : α} {next : α → Except ε β} :
    ((.ok first : Except ε α) >>= next) = next first := rfl

theorem bind_eq_error {result : Except ε α} {next : α → Except ε β} {failure : ε} :
    result >>= next = .error failure ↔
      result = .error failure ∨ ∃ first, result = .ok first ∧ next first = .error failure := by
  cases result with
  | error other =>
    show (.error other : Except ε β) = .error failure ↔ _
    simp
  | ok first =>
    rw [ok_bind]
    simp

theorem pure_eq_ok {first value : α} :
    (pure first : Except ε α) = .ok value ↔ first = value := by
  rw [show (pure first : Except ε α) = .ok first from rfl, Except.ok.injEq]

/-- Computations that succeed with the same values differ in nothing but the reported failure. -/
theorem toOption_congr {left right : Except ε α}
    (same : ∀ value, left = .ok value ↔ right = .ok value) : left.toOption = right.toOption := by
  cases left with
  | ok value => rw [(same value).mp rfl]
  | error failure =>
    cases right with
    | ok value => cases (same value).mpr rfl
    | error other => rfl

/-- A check in front of a computation passes where its condition is false. -/
theorem guard_eq_ok {condition : Bool} {failure : ε} {next : Unit → Except ε α} {value : α} :
    (if condition = true then throw failure >>= next else next ()) = .ok value ↔
      condition = false ∧ next () = .ok value := by
  cases condition with
  | true =>
    constructor
    · intro succeeded
      cases succeeded
    · rintro ⟨failed, _⟩
      cases failed
  | false => simp

/-- A check in front of a computation refuses where its condition is true. -/
theorem guard_eq_error {condition : Bool} {refusal failure : ε} {next : Unit → Except ε α} :
    (if condition = true then throw refusal >>= next else next ()) = .error failure ↔
      condition = true ∧ refusal = failure ∨ condition = false ∧ next () = .error failure := by
  cases condition with
  | true =>
    show (.error refusal : Except ε α) = .error failure ↔ _
    simp
  | false => simp

/-- A check on its own passes where its condition is false. -/
theorem check_eq_ok {condition : Bool} {failure : ε} :
    (if condition = true then throw failure else pure () : Except ε Unit) = .ok () ↔
      condition = false := by
  cases condition with
  | true =>
    constructor
    · intro succeeded
      cases succeeded
    · intro failed
      cases failed
  | false => exact ⟨fun _ => rfl, fun _ => rfl⟩

theorem mapError_eq_ok {result : Except ε α} {change : ε → δ} {value : α} :
    result.mapError change = .ok value ↔ result = .ok value := by
  cases result <;> simp [Except.mapError]

/-- A list of questions is answered exactly when each of them is. -/
theorem mapM_eq_ok {question : α → Except ε β} {items : List α} {answers : List β} :
    items.mapM question = .ok answers ↔
      List.Forall₂ (fun item answer => question item = .ok answer) items answers := by
  induction items generalizing answers with
  | nil =>
    rw [List.mapM_nil, pure_eq_ok]
    constructor
    · rintro rfl
      exact .nil
    · intro pairs
      cases pairs
      rfl
  | cons item rest inductionHypothesis =>
    rw [List.mapM_cons, bind_eq_ok]
    constructor
    · rintro ⟨answer, answered, remaining⟩
      obtain ⟨others, restAnswered, built⟩ := bind_eq_ok.mp remaining
      rw [← pure_eq_ok.mp built]
      exact .cons answered (inductionHypothesis.mp restAnswered)
    · intro pairs
      cases pairs with
      | cons answered others =>
        exact ⟨_, answered, bind_eq_ok.mpr ⟨_, inductionHypothesis.mpr others, rfl⟩⟩

/-- A list of questions is refused because of the first of them that is. -/
theorem exists_first_of_mapM_eq_error {question : α → Except ε β} {items : List α} {failure : ε}
    (failed : items.mapM question = .error failure) :
    ∃ before item after, items = before ++ item :: after ∧ question item = .error failure ∧
      ∀ other ∈ before, ∃ answer, question other = .ok answer := by
  induction items with
  | nil => cases failed
  | cons first rest inductionHypothesis =>
    rw [List.mapM_cons] at failed
    rcases bind_eq_error.mp failed with own | ⟨answer, answered, later⟩
    · exact ⟨[], first, rest, rfl, own, by simp⟩
    · rcases bind_eq_error.mp later with restFailed | ⟨others, _, built⟩
      · obtain ⟨before, item, after, rfl, refused, answers⟩ := inductionHypothesis restFailed
        exact ⟨first :: before, item, after, rfl, refused,
          List.forall_mem_cons.mpr ⟨⟨answer, answered⟩, answers⟩⟩
      · cases built

theorem exists_item_of_mapM_eq_error {question : α → Except ε β} {items : List α} {failure : ε}
    (failed : items.mapM question = .error failure) :
    ∃ item ∈ items, question item = .error failure := by
  obtain ⟨before, item, after, rfl, refused, _⟩ := exists_first_of_mapM_eq_error failed
  exact ⟨item, by simp, refused⟩

/-- Every answer belongs to one of the questions. -/
theorem exists_item_of_mem {relation : α → β → Prop} {items : List α} {answers : List β}
    (pairs : List.Forall₂ relation items answers) {answer : β} (member : answer ∈ answers) :
    ∃ item ∈ items, relation item answer := by
  induction pairs with
  | nil => cases member
  | cons related rest inductionHypothesis =>
    rcases List.mem_cons.mp member with rfl | later
    · exact ⟨_, by simp, related⟩
    · obtain ⟨item, listed, related⟩ := inductionHypothesis later
      exact ⟨item, List.mem_cons_of_mem _ listed, related⟩

/-- Every question has its answer at the same place. -/
theorem exists_getElem?_of_forall₂ {relation : α → β → Prop} {items : List α} {answers : List β}
    (pairs : List.Forall₂ relation items answers) {place : Nat} {item : α}
    (located : items[place]? = some item) :
    ∃ answer, answers[place]? = some answer ∧ relation item answer := by
  induction pairs generalizing place with
  | nil => simp at located
  | cons related _ inductionHypothesis =>
    cases place with
    | zero =>
      simp only [List.getElem?_cons_zero, Option.some.injEq] at located
      exact ⟨_, rfl, located ▸ related⟩
    | succ place => exact inductionHypothesis located

/-- The first answer with a property belongs to a question in front of which none has it. -/
theorem exists_split_of_find? {relation : α → β → Prop} {items : List α}
    {answers : List β} (pairs : List.Forall₂ relation items answers) {property : β → Bool}
    {answer : β} (found : answers.find? property = some answer) :
    ∃ before item after, items = before ++ item :: after ∧ relation item answer ∧
      ∀ passed ∈ before, ∃ other, relation passed other ∧ property other = false := by
  induction pairs with
  | nil => cases found
  | @cons item first items answers related _ inductionHypothesis =>
    rw [List.find?_cons] at found
    cases holds : property first with
    | true =>
      rw [holds] at found
      cases found
      exact ⟨[], item, items, rfl, related, by simp⟩
    | false =>
      rw [holds] at found
      obtain ⟨before, later, after, rfl, laterRelated, passed⟩ := inductionHypothesis found
      exact ⟨item :: before, later, after, rfl, laterRelated,
        List.forall_mem_cons.mpr ⟨⟨first, related, holds⟩, passed⟩⟩

/-- Answers agree with their questions in what each pair agrees in. -/
theorem map_eq_map_of_forall₂ {γ : Type} {relation : α → β → Prop} {items : List α}
    {answers : List β} {left : α → γ} {right : β → γ} (pairs : List.Forall₂ relation items answers)
    (agree : ∀ item answer, relation item answer → left item = right answer) :
    items.map left = answers.map right := by
  induction pairs with
  | nil => rfl
  | cons related _ inductionHypothesis =>
    rw [List.map_cons, List.map_cons, agree _ _ related, inductionHypothesis]

/-- A list of checks passes exactly when each of them does. -/
theorem forM_eq_ok {check : α → Except ε Unit} {items : List α} :
    items.forM check = .ok () ↔ ∀ item ∈ items, check item = .ok () := by
  induction items with
  | nil => simp [pure, Except.pure]
  | cons item rest inductionHypothesis =>
    show (check item >>= fun _ => rest.forM check) = .ok () ↔ _
    rw [bind_eq_ok, List.forall_mem_cons, ← inductionHypothesis]
    constructor
    · rintro ⟨_, passed, others⟩
      exact ⟨passed, others⟩
    · rintro ⟨passed, others⟩
      exact ⟨_, passed, others⟩

/-- A list of checks is refused because of one that is. -/
theorem exists_item_of_forM_eq_error {check : α → Except ε Unit} {items : List α} {failure : ε}
    (failed : items.forM check = .error failure) : ∃ item ∈ items, check item = .error failure := by
  induction items with
  | nil => cases failed
  | cons first rest inductionHypothesis =>
    rcases bind_eq_error.mp failed with own | ⟨_, _, later⟩
    · exact ⟨first, by simp, own⟩
    · obtain ⟨item, member, refused⟩ := inductionHypothesis later
      exact ⟨item, List.mem_cons_of_mem _ member, refused⟩

/-- Steps that all succeed make a fold that succeeds, and keep what each of them keeps. The steps
may depend on an index, as long as their answers do not. -/
theorem exists_foldlM_eq_ok {ι : Type} (step : ι → β → α → Except ε β) (allowed : ι → Prop)
    (invariant : β → Prop) {items : List α}
    (each : ∀ item ∈ items, ∀ state, invariant state →
      ∃ next, (∀ index, allowed index → step index state item = .ok next) ∧ invariant next)
    {start : β} (holds : invariant start) :
    ∃ result, (∀ index, allowed index → items.foldlM (step index) start = .ok result) ∧
      invariant result := by
  induction items generalizing start with
  | nil => exact ⟨start, fun _ _ => rfl, holds⟩
  | cons item rest inductionHypothesis =>
    obtain ⟨next, stepped, nextHolds⟩ := each item (by simp) start holds
    obtain ⟨result, folded, resultHolds⟩ := inductionHypothesis
      (fun other member => each other (List.mem_cons_of_mem _ member)) nextHolds
    refine ⟨result, fun index isAllowed => ?_, resultHolds⟩
    rw [List.foldlM_cons, stepped index isAllowed, ok_bind]
    exact folded index isAllowed

/-- `exists_foldlM_eq_ok` for steps that succeed in every state. -/
theorem exists_foldlM_eq_ok_of_each {step : β → α → Except ε β} {items : List α}
    (each : ∀ item ∈ items, ∀ state, ∃ next, step state item = .ok next) (start : β) :
    ∃ result, items.foldlM step start = .ok result := by
  obtain ⟨result, folded, _⟩ :=
    exists_foldlM_eq_ok (fun _ : Unit => step) (fun _ => True) (fun _ => True)
      (fun item member state _ => by
        obtain ⟨next, stepped⟩ := each item member state
        exact ⟨next, fun _ _ => stepped, trivial⟩)
      (trivial : True)
  exact ⟨result, folded () trivial⟩

/-- Steps that all succeed with the answers of a function fold as the function does. -/
theorem foldlM_eq_ok_of_each {step : β → α → Except ε β} {pureStep : β → α → β} {items : List α}
    (each : ∀ item ∈ items, ∀ state, step state item = .ok (pureStep state item)) (start : β) :
    items.foldlM step start = .ok (items.foldl pureStep start) := by
  induction items generalizing start with
  | nil => rfl
  | cons item rest inductionHypothesis =>
    rw [List.forall_mem_cons] at each
    rw [List.foldlM_cons, each.1, ok_bind, inductionHypothesis each.2, List.foldl_cons]

/-- Questions with the answers of a function have the list of these answers. -/
theorem mapM_eq_ok_of_each {question : α → Except ε β} {answer : α → β} {items : List α}
    (each : ∀ item ∈ items, question item = .ok (answer item)) :
    items.mapM question = .ok (items.map answer) := by
  rw [mapM_eq_ok, List.forall₂_map_right_iff, List.forall₂_same]
  exact each

/-- A list of questions that are all answered has a list of answers. -/
theorem exists_mapM_eq_ok {question : α → Except ε β} {items : List α}
    (each : ∀ item ∈ items, ∃ answer, question item = .ok answer) :
    ∃ answers, items.mapM question = .ok answers := by
  induction items with
  | nil => exact ⟨[], rfl⟩
  | cons item rest inductionHypothesis =>
    rw [List.forall_mem_cons] at each
    obtain ⟨answer, answered⟩ := each.1
    obtain ⟨others, restAnswered⟩ := inductionHypothesis each.2
    exact ⟨answer :: others, mapM_eq_ok.mpr (.cons answered (mapM_eq_ok.mp restAnswered))⟩

end Outcome

end TypeRecords
