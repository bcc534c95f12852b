import Mathlib.Data.List.Basic
import TypeRecords.QualifiedName

/-!
Reading displayed names.

Owns what becomes of a name that is displayed and read again. Reading takes a text apart at every
dot, also at the dots inside a part, so each part of a displayed name is read on its own and what
is read of it takes its place. A name is therefore restored exactly if its parts are neither empty
nor dotted. What is read from a text is such a name, whatever dots the text has, and these names
are told apart by their displayed forms.
-/

namespace TypeRecords

namespace QualifiedName

/-- Whether dots stand only between the parts of a name when it is displayed, and each part shows
there: no part is empty or has a dot. -/
def IsPlain (name : QualifiedName) : Prop :=
  ∀ part ∈ name.parts, part ≠ "" ∧ '.' ∉ part.toList

instance (name : QualifiedName) : Decidable name.IsPlain :=
  inferInstanceAs (Decidable (∀ part ∈ name.parts, part ≠ "" ∧ '.' ∉ part.toList))

variable {name first second : QualifiedName} {part : String}

/-! ## What is read from a text -/

theorem isPlain_parse (dotted : String) : (parse dotted).IsPlain := by
  intro part isPart
  obtain ⟨piece, isPiece, rfl⟩ := List.mem_map.mp isPart
  obtain ⟨isPiece, present⟩ := List.mem_filter.mp isPiece
  have someText : piece ≠ [] := of_decide_eq_true present
  rw [Ne, String.ofList_eq_empty_iff, String.toList_ofList]
  exact ⟨someText, Text.separator_notMem_of_mem_splitOn isPiece⟩

/-- A text without dots is read as one part, unless it is empty. -/
theorem parse_of_notMem (someText : part ≠ "") (undotted : '.' ∉ part.toList) :
    parse part = ⟨[part]⟩ := by
  have present : part.toList ≠ [] := mt String.toList_eq_nil_iff.mp someText
  rw [parse, Text.splitOn_eq, List.splitOn_eq_singleton undotted]
  simp [present]

/-- The texts before and behind a dot are read on their own. -/
theorem parts_parse_append (front back : String) :
    (parse (front ++ "." ++ back)).parts = (parse front).parts ++ (parse back).parts := by
  have spelled : (front ++ "." ++ back).toList = front.toList ++ '.' :: back.toList := by simp
  simp only [parse, Text.splitOn_eq, spelled, List.splitOn_append_cons_self, List.filter_append,
    List.map_append]

/-! ## What is read from a displayed name -/

/-- Every part is replaced by what is read of it. -/
theorem parts_parse_display (name : QualifiedName) :
    (parse name.display).parts = name.parts.flatMap fun part => (parse part).parts := by
  obtain ⟨parts⟩ := name
  simp only [display, join]
  induction parts with
  | nil => rfl
  | cons part rest inductionHypothesis =>
    -- No dot stands behind the last part.
    cases rest with
    | nil => simp
    | cons next others =>
      rw [List.flatMap_cons, ← inductionHypothesis, String.intercalate_cons_cons,
        parts_parse_append]

example : parse (display ⟨["demo.Shape", "", ".Arc"]⟩) = ⟨["demo", "Shape", "Arc"]⟩ := by decide

theorem IsPlain.parse_display (plain : name.IsPlain) : parse name.display = name := by
  have kept : ∀ part ∈ name.parts, (parse part).parts = [part] := fun part isPart =>
    congrArg parts (parse_of_notMem (plain part isPart).1 (plain part isPart).2)
  have restored : (parse name.display).parts = name.parts := calc
    (parse name.display).parts = name.parts.flatMap fun part => (parse part).parts :=
      parts_parse_display name
    _ = name.parts.flatMap fun part => [part] := List.flatMap_congr kept
    _ = name.parts := List.flatMap_singleton' name.parts
  exact congrArg mk restored

theorem parse_display_eq_iff : parse name.display = name ↔ name.IsPlain := by
  refine ⟨fun restored => ?_, IsPlain.parse_display⟩
  rw [← restored]
  exact isPlain_parse name.display

example : ¬ IsPlain ⟨["demo.Shape"]⟩ := by decide

/-- Plain names are told apart by their displayed forms. -/
theorem IsPlain.display_eq_iff (firstPlain : first.IsPlain) (secondPlain : second.IsPlain) :
    first.display = second.display ↔ first = second := by
  refine ⟨fun alike => ?_, congrArg display⟩
  rw [← firstPlain.parse_display, alike, secondPlain.parse_display]

/-! ## Main result -/

/-- A name is restored from its displayed form exactly if no part of it is empty or has a dot. This
holds of what is read from any text, so displaying and reading it changes nothing, and two texts
are read as one name exactly if what is read from them displays alike. -/
theorem parse_restores_plain :
    (∀ name : QualifiedName, parse name.display = name ↔ name.IsPlain) ∧
    (∀ dotted : String, (parse dotted).IsPlain ∧
      parse (parse dotted).display = parse dotted) ∧
    ∀ dotted other : String,
      (parse dotted).display = (parse other).display ↔ parse dotted = parse other := by
  refine ⟨fun name => parse_display_eq_iff, fun dotted => ?_, fun dotted other => ?_⟩
  · exact ⟨isPlain_parse dotted, (isPlain_parse dotted).parse_display⟩
  · exact (isPlain_parse dotted).display_eq_iff (isPlain_parse other)

end QualifiedName

end TypeRecords
