import TypeRecords.Proofs.CSource.Declarations

/-!
Comments of a unit.

Owns how C reads a comment, and the proof that it reads those of a unit as they were written. The
text of a comment is made in two steps. Escaping leaves printable characters only, and a star or a
slash in them is one of the name itself, as no escape has any. Setting the spaces changes no
neighbour of a star but a slash, so behind a star of the result there is none. The frame around the
text has a space on either side, so it adds no end of its own before the last one.
-/

namespace TypeRecords

namespace Text

/-! ## Printable characters -/

/-- Whether a character is one from space to tilde. -/
def Printable (character : Char) : Prop := ' ' ≤ character ∧ character ≤ '~'

instance (character : Char) : Decidable (Printable character) :=
  inferInstanceAs (Decidable (_ ∧ _))

theorem printable_digitChar : ∀ digit < 16, Printable (Nat.digitChar digit) := by decide

theorem exists_digit_of_mem_toDigits {number : Nat} {character : Char}
    (member : character ∈ Nat.toDigits 16 number) :
    ∃ digit < 16, character = Nat.digitChar digit := by
  induction number using Nat.strongRecOn with
  | ind number inductionHypothesis =>
    by_cases small : number < 16
    · rw [Nat.toDigits_of_lt_base small, List.mem_singleton] at member
      exact ⟨number, small, member⟩
    · rw [Nat.toDigits_of_base_le (by decide) (by omega), List.mem_append,
        List.mem_singleton] at member
      rcases member with front | last
      · exact inductionHypothesis (number / 16) (by omega) front
      · exact ⟨number % 16, by omega, last⟩

theorem printable_byNumber {character part : Char} (member : part ∈ byNumber character) :
    Printable part := by
  simp only [byNumber, List.mem_append, List.mem_cons, List.not_mem_nil, or_false] at member
  rcases member with ((rfl | rfl | rfl) | digits) | rfl
  · decide
  · decide
  · decide
  · obtain ⟨digit, small, rfl⟩ := exists_digit_of_mem_toDigits digits
    exact printable_digitChar digit small
  · decide

theorem printable_asciiCharacter {character part : Char}
    (member : part ∈ asciiCharacter character) : Printable part := by
  -- Outside the last case, both characters are letters or marks.
  have pair : ∀ {first second : Char}, Printable first → Printable second →
      part ∈ [first, second] → Printable part := by
    intro first second firstPrintable secondPrintable listed
    simp only [List.mem_cons, List.not_mem_nil, or_false] at listed
    rcases listed with rfl | rfl
    · exact firstPrintable
    · exact secondPrintable
  unfold asciiCharacter at member
  split at member
  · exact pair (by decide) (by decide) member
  · exact pair (by decide) (by decide) member
  · exact pair (by decide) (by decide) member
  · exact pair (by decide) (by decide) member
  · exact pair (by decide) (by decide) member
  · exact pair (by decide) (by decide) member
  · split at member
    · rename_i isPrintable
      rw [List.mem_singleton.mp member]
      exact isPrintable
    · exact printable_byNumber member

theorem mem_separateCommentEnds {characters : List Char} {part : Char}
    (member : part ∈ separateCommentEnds characters) : part = ' ' ∨ part ∈ characters := by
  fun_induction separateCommentEnds characters with
  | case1 => cases member
  | case2 rest inductionHypothesis =>
    simp only [List.mem_cons] at member ⊢
    rcases member with same | same | same | later
    · exact .inr (.inl same)
    · exact .inl same
    · exact .inr (.inr (.inl same))
    · exact (inductionHypothesis later).imp_right fun known => .inr (.inr known)
  | case3 character rest _ inductionHypothesis =>
    rcases List.mem_cons.mp member with same | later
    · exact .inr (List.mem_cons.mpr (.inl same))
    · exact (inductionHypothesis later).imp_right (List.mem_cons_of_mem character)

/-! ## Ends of comments -/

/-- Whether characters contain the end of a comment. -/
def HasCommentEnd (characters : List Char) : Prop := ['*', '/'] <:+: characters

theorem hasCommentEnd_cons {character : Char} {rest : List Char} :
    HasCommentEnd (character :: rest) ↔
      (character = '*' ∧ rest.head? = some '/') ∨ HasCommentEnd rest := by
  rw [HasCommentEnd, List.infix_cons_iff, List.cons_prefix_cons]
  have slash : ['/'] <+: rest ↔ rest.head? = some '/' := by
    cases rest with
    | nil => simp
    | cons first later => simp [List.cons_prefix_cons, eq_comm]
  rw [slash, eq_comm]
  rfl

theorem head?_separateCommentEnds (characters : List Char) :
    (separateCommentEnds characters).head? = characters.head? := by
  fun_cases separateCommentEnds characters <;> rfl

theorem not_hasCommentEnd_separateCommentEnds (characters : List Char) :
    ¬HasCommentEnd (separateCommentEnds characters) := by
  fun_induction separateCommentEnds characters with
  | case1 => simp [HasCommentEnd]
  | case2 rest inductionHypothesis =>
    simp [hasCommentEnd_cons, inductionHypothesis]
  | case3 character rest notEnd inductionHypothesis =>
    rw [hasCommentEnd_cons, head?_separateCommentEnds]
    rintro (⟨rfl, slash⟩ | later)
    · obtain ⟨tail, rfl⟩ := List.head?_eq_some_iff.mp slash
      exact notEnd tail rfl rfl
    · exact inductionHypothesis later

/-- Whether a text stays inside a comment and on its line. -/
structure StaysInside (text : String) : Prop where
  printable : ∀ character ∈ text.toList, Printable character
  unended : ¬HasCommentEnd text.toList

theorem staysInside_commentText (text : String) : StaysInside (commentText text) where
  printable := by
    intro character member
    rw [commentText, String.toList_ofList] at member
    rcases mem_separateCommentEnds member with rfl | escaped
    · decide
    · obtain ⟨original, _, part⟩ := List.mem_flatMap.mp escaped
      exact printable_asciiCharacter part
  unended := by
    rw [commentText, String.toList_ofList]
    exact not_hasCommentEnd_separateCommentEnds _

theorem StaysInside.newline_notMem {text : String} (stays : StaysInside text) :
    '\n' ∉ text.toList :=
  fun member => absurd (stays.printable _ member) (by decide)

end Text

namespace CSource

open Text

/-! ## Reading comments -/

/-- What stands behind the end of a comment that the characters start inside of. In a comment,
characters are only looked through for its end. -/
def afterComment : List Char → Option (List Char)
  | [] => none
  | '*' :: '/' :: rest => some rest
  | _ :: rest => afterComment rest

theorem afterComment_cons {character : Char} {rest : List Char}
    (noEnd : ¬(character = '*' ∧ rest.head? = some '/')) :
    afterComment (character :: rest) = afterComment rest := by
  rw [afterComment]
  rintro tail rfl rfl
  exact noEnd ⟨rfl, rfl⟩

/-- Behind a text without an end, and a space, the next end is that of the comment. -/
theorem afterComment_append {characters : List Char} (unended : ¬HasCommentEnd characters)
    (rest : List Char) : afterComment (characters ++ ' ' :: '*' :: '/' :: rest) = some rest := by
  induction characters with
  | nil => rfl
  | cons character later inductionHypothesis =>
    rw [hasCommentEnd_cons, not_or] at unended
    rw [List.cons_append, afterComment_cons, inductionHypothesis unended.2]
    rintro ⟨isStar, isSlash⟩
    cases later with
    | nil => cases isSlash
    | cons next _ => exact unended.1 ⟨isStar, isSlash⟩

theorem afterComment_eq_some_append {characters behind : List Char}
    (ended : afterComment characters = some behind) (rest : List Char) :
    afterComment (characters ++ rest) = some (behind ++ rest) := by
  fun_induction afterComment characters with
  | case1 => cases ended
  | case2 tail =>
    cases ended
    rfl
  | case3 character later notEnd inductionHypothesis =>
    have same : afterComment (character :: later ++ rest) = afterComment (later ++ rest) := by
      apply afterComment_cons
      rintro ⟨rfl, isSlash⟩
      cases later with
      | nil => cases ended
      | cons next tail =>
        cases isSlash
        exact notEnd tail rfl rfl
    rw [same]
    exact inductionHypothesis ended

/-- Whether a text is made of whole lines. -/
def WholeLines (text : String) : Prop := text = "" ∨ ∃ front, text = front ++ "\n"

theorem wholeLines_empty : WholeLines "" := .inl rfl

theorem wholeLines_newline (front : String) : WholeLines (front ++ "\n") := .inr ⟨front, rfl⟩

theorem wholeLines_ending (front ending : String) : WholeLines (front ++ (ending ++ "\n")) := by
  rw [← String.append_assoc]
  exact wholeLines_newline _

theorem WholeLines.append {first second : String} (firstLines : WholeLines first)
    (secondLines : WholeLines second) : WholeLines (first ++ second) := by
  rcases secondLines with rfl | ⟨front, rfl⟩
  · rwa [String.append_empty]
  · rw [← String.append_assoc]
    exact wholeLines_newline _

/-- Whether a text has comments written in it, in their order, and whole lines between them. Each
comment starts its line, and read from its opening mark it ends at the closing mark that ends the
same line. -/
inductive Commented : List String → String → Prop
  | code {text : String} (lines : WholeLines text) : Commented [] text
  | comment {before comment rest : String} {others : List String} (lines : WholeLines before)
      (oneLine : '\n' ∉ comment.toList)
      (closes : afterComment ("* " ++ comment ++ " */\n" ++ rest).toList =
        some ("\n" ++ rest).toList)
      (later : Commented others rest) :
      Commented (comment :: others) (before ++ "/*" ++ ("* " ++ comment ++ " */\n" ++ rest))

namespace Commented

variable {comments others : List String} {text other : String}

theorem append (first : Commented comments text) (second : Commented others other) :
    Commented (comments ++ others) (text ++ other) := by
  induction first with
  | code lines =>
    cases second with
    | code otherLines => exact .code (lines.append otherLines)
    | comment otherLines oneLine closes later =>
      have extended := Commented.comment (lines.append otherLines) oneLine closes later
      simpa only [String.append_assoc, List.nil_append] using extended
  | @comment before comment rest _ lines oneLine closes _ inductionHypothesis =>
    have closesLater := afterComment_eq_some_append closes other.toList
    rw [← String.toList_append, ← String.toList_append, String.append_assoc,
      @String.append_assoc "\n"] at closesLater
    have extended := Commented.comment lines oneLine closesLater inductionHypothesis
    simpa only [String.append_assoc, List.cons_append] using extended

theorem join {α : Type} {items : List α} {commentsOf : α → List String} {textOf : α → String}
    (each : ∀ item ∈ items, Commented (commentsOf item) (textOf item)) :
    Commented (items.flatMap commentsOf) (String.join (items.map textOf)) := by
  induction items with
  | nil => exact .code wholeLines_empty
  | cons item rest inductionHypothesis =>
    rw [List.forall_mem_cons] at each
    rw [List.flatMap_cons, List.map_cons, String.join_cons]
    exact each.1.append (inductionHypothesis each.2)

end Commented

/-- The line of a text that stays inside is read as the comment it was written as. -/
theorem commented_commentLine {text : String} (stays : StaysInside text) :
    Commented [text] (commentLine (some text)) := by
  have closes : afterComment ("* " ++ text ++ " */\n" ++ "").toList = some ("\n" ++ "").toList := by
    have ended := afterComment_append stays.unended ['\n']
    simpa [afterComment] using ended
  have framed : commentLine (some text) = "" ++ "/*" ++ ("* " ++ text ++ " */\n" ++ "") := by
    rw [String.append_empty, String.empty_append, ← String.append_assoc, ← String.append_assoc]
    rfl
  rw [framed]
  exact .comment wholeLines_empty stays.newline_notMem closes (.code wholeLines_empty)

/-- A line of code with the comment of a name in front of it, if there is to be one. -/
theorem commented_named (options : Options) (name code : String) :
    Commented (options.comment name).toList
      (commentLine (options.comment name) ++ (code ++ "\n")) := by
  unfold Options.comment
  split
  · exact (commented_commentLine (staysInside_commentText name)).append
      (.code (wholeLines_newline code))
  · exact .code (wholeLines_empty.append (wholeLines_newline code))

namespace SourceUnit

variable {segment : Segment} {catalog : Catalog} {options : Options} {unit : SourceUnit}

/-! ## The parts of a unit -/

theorem commented_paragraph {items : List String} {itemEnd : String} {comments : List String}
    (each : Commented comments (String.join (items.map (· ++ itemEnd)))) :
    Commented comments (paragraph items itemEnd) := by
  unfold paragraph
  split
  · rename_i isEmpty
    rw [List.isEmpty_iff.mp isEmpty] at each
    exact each
  · have closed := each.append (.code (wholeLines_newline ""))
    rwa [List.append_nil] at closed

theorem commented_lines {α : Type} {items : List α} {textOf : α → String}
    (lines : ∀ item ∈ items, WholeLines (textOf item)) :
    Commented [] (String.join (items.map textOf)) := by
  have joined : Commented (items.flatMap fun _ => []) (String.join (items.map textOf)) :=
    .join fun item listed => .code (lines item listed)
  rwa [List.flatMap_eq_nil_iff.mpr fun _ _ => rfl] at joined

theorem commented_functions (segment : Segment) (catalog : Catalog) (options : Options) :
    Commented ((ofSegment segment catalog options).functions.filterMap FunctionDeclaration.comment)
      (paragraph ((ofSegment segment catalog options).functions.map FunctionDeclaration.display)
        ";\n") := by
  apply commented_paragraph
  rw [List.map_map, List.filterMap_eq_flatMap_toList]
  apply Commented.join
  intro declaration listed
  rw [(translated_ofSegment segment catalog options).functions] at listed
  obtain ⟨id, _, rfl⟩ := List.mem_map.mp listed
  have named := commented_named options (catalog.describeFunction id)
    (s!"extern void {functionName id}(void)" ++ ";")
  rw [@String.append_assoc _ ";" "\n", ← String.append_assoc] at named
  exact named

theorem commented_declarations (segment : Segment) (catalog : Catalog) (options : Options) :
    Commented ((ofSegment segment catalog options).globals.filterMap GlobalVariable.comment)
      (String.join ((ofSegment segment catalog options).globals.map fun declared =>
        commentLine declared.comment ++ declared.declaration ++ ";\n")) := by
  rw [List.filterMap_eq_flatMap_toList]
  apply Commented.join
  intro declared listed
  obtain ⟨place, located⟩ := List.mem_iff_getElem?.mp listed
  obtain ⟨global, _, isVariable⟩ := exists_get?_of_variable located
  rw [isVariable.comment]
  have named := commented_named options global.name (declared.declaration ++ ";")
  rw [@String.append_assoc _ ";" "\n", ← String.append_assoc] at named
  exact named

theorem commented_structs (structs : List StructDefinition) :
    Commented [] ("#include <stddef.h>\n#include <stdint.h>\n\n" ++
      paragraph (structs.map StructDefinition.head) ";\n" ++
      String.join (structs.map fun definition => definition.display ++ ";\n\n")) := by
  have includes : WholeLines "#include <stddef.h>\n#include <stdint.h>\n\n" :=
    wholeLines_newline "#include <stddef.h>\n#include <stdint.h>\n"
  have heads : Commented [] (paragraph (structs.map StructDefinition.head) ";\n") := by
    apply commented_paragraph
    exact commented_lines fun head _ => wholeLines_ending head ";"
  have definitions : Commented []
      (String.join (structs.map fun definition => definition.display ++ ";\n\n")) :=
    commented_lines fun definition _ => wholeLines_ending definition.display ";\n"
  exact ((Commented.code includes).append heads).append definitions

theorem commented_definitions (globals : List GlobalVariable) :
    Commented [] ("\n" ++ String.join (globals.filterMap fun declared =>
      declared.definition?.map (· ++ ";\n"))) := by
  have blank : Commented [] "\n" := .code (wholeLines_newline "")
  have lines : Commented [] (String.join ((globals.filterMap fun declared =>
      declared.definition?.map (· ++ ";\n")).map id)) := by
    refine commented_lines fun text listed => ?_
    obtain ⟨declared, _, defined⟩ := List.mem_filterMap.mp listed
    obtain ⟨definition, _, rfl⟩ := Option.map_eq_some_iff.mp defined
    exact wholeLines_ending definition ";"
  rw [List.map_id] at lines
  exact blank.append lines

/-! ## The comments of a unit -/

/-- The comments of a unit, in the order in which they are written. -/
def comments (unit : SourceUnit) : List String :=
  unit.structDefinitions.filterMap StructDefinition.comment ++
    unit.functions.filterMap FunctionDeclaration.comment ++
    unit.globals.filterMap GlobalVariable.comment

/-- The names that the comments of a unit tell: those of the functions it mentions, and those its
globals have in the segment. -/
def commentedNames (segment : Segment) (catalog : Catalog) : List String :=
  (segment.globals.flatMap Global.functions).eraseDups.map catalog.describeFunction ++
    segment.globals.map Global.name

theorem filterMap_comment_structDefinitions (unit : SourceUnit) :
    unit.structDefinitions.filterMap StructDefinition.comment = [] :=
  List.filterMap_eq_nil_iff.mpr fun _ listed => (mem_structDefinitions.mp listed).2

theorem map_comment_globals (segment : Segment) (catalog : Catalog) (options : Options) :
    (ofSegment segment catalog options).globals.map GlobalVariable.comment =
      (segment.globals.map Global.name).map options.comment := by
  have pairs := (translated_ofSegment segment catalog options).globals
  have each := Outcome.map_eq_map_of_forall₂ pairs fun _ _ isVariable => isVariable.comment.symm
  rw [← each, ← segment.map_snd_numbered, List.map_map, List.map_map]
  rfl

theorem map_comment_functions (segment : Segment) (catalog : Catalog) (options : Options) :
    (ofSegment segment catalog options).functions.map FunctionDeclaration.comment =
      ((segment.globals.flatMap Global.functions).eraseDups.map catalog.describeFunction).map
        options.comment := by
  rw [(translated_ofSegment segment catalog options).functions, flatMap_numbered, List.map_map,
    List.map_map]
  rfl

theorem comments_ofSegment (segment : Segment) (catalog : Catalog) (options : Options) :
    (ofSegment segment catalog options).comments =
      (commentedNames segment catalog).filterMap options.comment := by
  have reduced : ∀ {α : Type} (items : List α) (commentOf : α → Option String),
      items.filterMap commentOf = (items.map commentOf).filterMap id := fun items commentOf =>
    (List.filterMap_map (f := commentOf) (g := id)).symm
  rw [comments, filterMap_comment_structDefinitions, List.nil_append, commentedNames,
    List.filterMap_append, reduced _ FunctionDeclaration.comment, map_comment_functions,
    reduced _ GlobalVariable.comment, map_comment_globals, ← reduced, ← reduced]

/-! ## Main result -/

/-- The text of a comment is printable and has no end of a comment in it, whatever name it is made
from. So the unit of a segment has a comment for each name, if it is to have comments, and in its
text each of them ends at its own closing mark, on the line that it starts. -/
theorem commented_ofSegment :
    (∀ text, StaysInside (commentText text)) ∧
    ∀ (segment : Segment) (catalog : Catalog) (options : Options),
      (ofSegment segment catalog options).comments =
        (if options.comments then commentedNames segment catalog else []).map commentText ∧
      ∃ text, (ofSegment segment catalog options).display = .ok text ∧
        Commented (ofSegment segment catalog options).comments text := by
  refine ⟨staysInside_commentText, fun segment catalog options => ⟨?_, ?_⟩⟩
  · rw [comments_ofSegment]
    unfold Options.comment
    split
    · exact congrFun List.filterMap_eq_map _
    · exact List.filterMap_none _
  · obtain ⟨ordered, isOrdered, _⟩ :=
      exists_orderedStructs (translated_ofSegment segment catalog options).filled
    refine ⟨_, by rw [display, isOrdered]; rfl, ?_⟩
    have whole := (((commented_structs ordered).append
      (commented_functions segment catalog options)).append
        (commented_declarations segment catalog options)).append
          (commented_definitions (ofSegment segment catalog options).globals)
    rw [List.append_nil, List.nil_append, ← String.append_assoc] at whole
    rw [comments, filterMap_comment_structDefinitions, List.nil_append]
    exact whole

end SourceUnit

end CSource

end TypeRecords
