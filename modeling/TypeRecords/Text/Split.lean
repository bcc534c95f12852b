/-!
Cutting a text at a separating character.

`splitOn_eq` says that the pieces are those of `List.splitOn`, so they have its laws: joining the
pieces with the separator restores the text, and cutting what was joined restores pieces without the
separator. `separator_notMem_of_mem_splitOn` says that all pieces are such ones.
-/

namespace TypeRecords.Text

/-- The pieces between the separators: one more than there are separators. -/
def splitOn (separator : Char) : List Char → List (List Char)
  | [] => [[]]
  | character :: rest =>
    if character = separator then [] :: splitOn separator rest
    else
      match splitOn separator rest with
      | [] => [[character]]
      | piece :: pieces => (character :: piece) :: pieces

variable {separator character : Char}

theorem splitOn_ne_nil (separator : Char) (text : List Char) : splitOn separator text ≠ [] := by
  cases text with
  | nil => simp [splitOn]
  | cons character rest =>
    unfold splitOn
    split
    · simp
    · split <;> simp

theorem splitOn_cons_self (separator : Char) (rest : List Char) :
    splitOn separator (separator :: rest) = [] :: splitOn separator rest := by
  rw [splitOn, if_pos rfl]

/-- Any other character goes to the front of the first piece. -/
theorem exists_splitOn_cons_of_ne (other : character ≠ separator) (rest : List Char) :
    ∃ piece pieces, splitOn separator rest = piece :: pieces ∧
      splitOn separator (character :: rest) = (character :: piece) :: pieces := by
  obtain ⟨piece, pieces, split⟩ := List.exists_cons_of_ne_nil (splitOn_ne_nil separator rest)
  refine ⟨piece, pieces, split, ?_⟩
  rw [splitOn, if_neg other, split]

theorem splitOn_eq (separator : Char) (text : List Char) :
    splitOn separator text = text.splitOn separator := by
  induction text with
  | nil => rfl
  | cons character rest inductionHypothesis =>
    rw [List.splitOn_cons_eq_if_modifyHead, ← inductionHypothesis]
    by_cases isSeparator : character = separator
    · subst isSeparator
      rw [splitOn_cons_self, if_pos BEq.rfl]
    · obtain ⟨piece, pieces, split, splitMore⟩ := exists_splitOn_cons_of_ne isSeparator rest
      rw [splitMore, split, if_neg (by simpa using isSeparator), List.modifyHead_cons]

/-- No piece has the separator. -/
theorem separator_notMem_of_mem_splitOn {text piece : List Char}
    (isPiece : piece ∈ splitOn separator text) : separator ∉ piece := by
  induction text generalizing piece with
  | nil =>
    obtain rfl : piece = [] := by simpa [splitOn] using isPiece
    exact List.not_mem_nil
  | cons character rest inductionHypothesis =>
    by_cases isSeparator : character = separator
    · subst isSeparator
      rw [splitOn_cons_self] at isPiece
      obtain rfl | isPiece := List.mem_cons.mp isPiece
      · exact List.not_mem_nil
      · exact inductionHypothesis isPiece
    · obtain ⟨first, others, split, splitMore⟩ := exists_splitOn_cons_of_ne isSeparator rest
      rw [split] at inductionHypothesis
      rw [splitMore] at isPiece
      obtain rfl | isPiece := List.mem_cons.mp isPiece
      · have free : separator ∉ first := inductionHypothesis List.mem_cons_self
        exact List.not_mem_cons_of_ne_of_not_mem (Ne.symm isSeparator) free
      · exact inductionHypothesis (List.mem_cons_of_mem _ isPiece)

end TypeRecords.Text
