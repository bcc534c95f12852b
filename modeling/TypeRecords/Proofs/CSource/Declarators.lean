import TypeRecords.Proofs.CSource.Grammar
import TypeRecords.Proofs.CSource.StructTable

/-!
Written declarations and what they declare.

Owns how the declaration written for a type is read. The dimensions of nested arrays are written
with those of the elements first, while C reads the first pair of brackets as the outermost array.
So a declaration declares its name with the type whose dimensions stand in reverse order, and with
the type it was written for exactly if they are the same in both directions. All else about the type
is read as it is meant: the innermost elements, their qualifier, and on which side of the star it
stands.
-/

namespace TypeRecords

/-- The lengths of nested arrays, the outermost first. -/
def DataType.dimensions : DataType → List Nat
  | .array element length => length :: element.dimensions
  | _ => []

namespace CSource

namespace CType

/-! ## Dimensions -/

/-- The sizes of nested arrays, the outermost first. -/
def dimensions : CType → List Nat
  | .array element size => size :: element.dimensions
  | _ => []

/-- The type of the elements of the innermost array. -/
def innermost : CType → CType
  | .array element _ => element.innermost
  | other => other

/-- Nested arrays of some sizes, the outermost first. -/
def ofDimensions (sizes : List Nat) (innermost : CType) : CType :=
  sizes.foldr (fun size element => .array element size) innermost

/-- The type with its dimensions in reverse order. -/
def reversed (type : CType) : CType := ofDimensions type.dimensions.reverse type.innermost

theorem ofDimensions_dimensions (type : CType) :
    ofDimensions type.dimensions type.innermost = type := by
  induction type with
  | array element size inductionHypothesis =>
    exact congrArg (fun element => CType.array element size) inductionHypothesis
  | void | uint16 | int32 | int64 | pointer | const | struct => rfl

theorem ofDimensions_concat (sizes : List Nat) (size : Nat) (innermost : CType) :
    ofDimensions (sizes ++ [size]) innermost = ofDimensions sizes (.array innermost size) :=
  List.foldr_append

theorem dimensions_ofDimensions (sizes : List Nat) {innermost : CType}
    (noArray : innermost.dimensions = []) : (ofDimensions sizes innermost).dimensions = sizes := by
  induction sizes with
  | nil => exact noArray
  | cons size rest inductionHypothesis => exact congrArg (List.cons size) inductionHypothesis

theorem dimensions_innermost (type : CType) : type.innermost.dimensions = [] := by
  induction type with
  | array _ _ inductionHypothesis => exact inductionHypothesis
  | void | uint16 | int32 | int64 | pointer | const | struct => rfl

/-- A type is its own reverse if its dimensions are. -/
theorem reversed_eq_self_iff {type : CType} :
    type.reversed = type ↔ type.dimensions.reverse = type.dimensions := by
  constructor
  · intro same
    rw [← dimensions_ofDimensions type.dimensions.reverse type.dimensions_innermost]
    exact congrArg dimensions same
  · intro same
    rw [reversed, same, ofDimensions_dimensions]

theorem dimensions_constant (type : CType) : type.constant.dimensions = type.dimensions := by
  induction type with
  | array _ size inductionHypothesis => exact congrArg (List.cons size) inductionHypothesis
  | void | uint16 | int32 | int64 | pointer | const | struct => rfl

theorem innermost_constant (type : CType) : type.constant.innermost = type.innermost.constant := by
  induction type with
  | array _ _ inductionHypothesis => exact inductionHypothesis
  | void | uint16 | int32 | int64 | pointer | const | struct => rfl

/-! ## Written parts -/

/-- Dimensions as they are written. -/
def brackets (sizes : List Nat) : List Char :=
  sizes.flatMap fun size => '[' :: (Nat.toDigits 10 size ++ [']'])

theorem leftOfName_eq (type : CType) : type.leftOfName = type.innermost.leftOfName := by
  induction type with
  | array _ _ inductionHypothesis => exact inductionHypothesis
  | void | uint16 | int32 | int64 | pointer | const | struct => rfl

theorem rightOfName_eq (type : CType) :
    type.rightOfName.toList =
      type.innermost.rightOfName.toList ++ brackets type.dimensions.reverse := by
  induction type with
  | array element size inductionHypothesis =>
    have written : (rightOfName (.array element size)).toList =
        element.rightOfName.toList ++ '[' :: (Nat.toDigits 10 size ++ [']']) := by
      simp [rightOfName, toString]
    rw [written, inductionHypothesis, dimensions, List.reverse_cons, brackets, brackets,
      List.flatMap_append, List.append_assoc]
    simp [innermost]
  | void | uint16 | int32 | int64 | pointer | const | struct =>
    simp [innermost, dimensions, brackets]

end CType

namespace Grammar

open CType

variable {type : CType} {name : String}

/-! ## Tokens right of the space -/

theorem bounds_of_isAlphanum {character : Char} (isAlphanum : character.isAlphanum = true) :
    '0' ≤ character ∧ character ≤ 'z' := by
  have listed : (decide ('A' ≤ character ∧ character ≤ 'Z') ||
      (decide ('a' ≤ character) && decide (character ≤ 'z')) ||
      (decide ('0' ≤ character) && decide (character ≤ '9'))) = true := isAlphanum
  simp only [Bool.or_eq_true, Bool.and_eq_true, decide_eq_true_eq] at listed
  rcases listed with (⟨above, below⟩ | ⟨above, below⟩) | ⟨above, below⟩
  · exact ⟨Char.le_trans (by decide) above, Char.le_trans below (by decide)⟩
  · exact ⟨Char.le_trans (by decide) above, below⟩
  · exact ⟨above, Char.le_trans below (by decide)⟩

theorem isBlank_of_isWordCharacter {character : Char} (inWord : isWordCharacter character = true) :
    Text.isBlank character = false := by
  simp only [isWordCharacter, Bool.or_eq_true, Bool.and_eq_true, Bool.not_eq_true',
    beq_iff_eq] at inWord
  rcases inWord with (isAlphanum | rfl) | ⟨_, noBlank⟩
  · obtain ⟨above, below⟩ := bounds_of_isAlphanum isAlphanum
    have least : 0x30 ≤ character.toNat := UInt32.le_iff_toNat_le.mp above
    have greatest : character.toNat ≤ 0x7a := UInt32.le_iff_toNat_le.mp below
    simp only [Text.isBlank, Bool.or_eq_false_iff, Bool.and_eq_false_imp, decide_eq_true_eq,
      decide_eq_false_iff_not, beq_eq_false_iff_ne]
    omega
  · decide
  · exact noBlank

theorem isWordCharacter_of_isDigit {character : Char} (isDigit : character.isDigit = true) :
    isWordCharacter character = true := by
  simp [isWordCharacter, Char.isAlphanum, isDigit]

theorem exists_first_of_isIdentifier (identifier : isIdentifier name = true) :
    name.toList ≠ [] ∧ ∀ character ∈ name.toList, isWordCharacter character = true := by
  unfold isIdentifier at identifier
  split at identifier
  · cases identifier
  · rename_i first rest isName
    rw [isName]
    simp only [Bool.and_eq_true, List.all_eq_true] at identifier
    exact ⟨List.cons_ne_nil _ _, identifier.1.2⟩

/-- The tokens of a pair of brackets. -/
def bracketTokens (size : Nat) : List String := ["[", size.repr, "]"]

theorem tokens_brackets (sizes : List Nat) :
    tokens (brackets sizes) = sizes.flatMap bracketTokens := by
  induction sizes with
  | nil => rfl
  | cons size rest inductionHypothesis =>
    have opening : isWordCharacter '[' = false := by decide
    have closing : isWordCharacter ']' = false := by decide
    have digits : tokens (Nat.toDigits 10 size) = [size.repr] := by
      rw [tokens_word Nat.toDigits_ne_nil, Nat.repr_eq_ofList_toDigits]
      intro digit listed
      exact isWordCharacter_of_isDigit (Nat.isDigit_of_mem_toDigits (by decide) (by decide) listed)
    rw [brackets, List.flatMap_cons, ← brackets, List.flatMap_cons, ← inductionHypothesis,
      List.cons_append, List.append_assoc, tokens_cons opening, List.singleton_append,
      tokens_append_cons closing, digits, tokens_cons closing]
    rfl

theorem tokens_name_brackets (identifier : isIdentifier name = true) (sizes : List Nat) :
    tokens (name.toList ++ brackets sizes) = name :: sizes.flatMap bracketTokens := by
  obtain ⟨isNonempty, characters⟩ := exists_first_of_isIdentifier identifier
  have word : tokens name.toList = [name] := by
    rw [tokens_word isNonempty characters, String.ofList_toList]
  cases sizes with
  | nil => simpa [brackets] using word
  | cons size rest =>
    have opening : isWordCharacter '[' = false := by decide
    have split : tokens (name.toList ++ brackets (size :: rest)) =
        tokens name.toList ++ tokens (brackets (size :: rest)) := tokens_append_cons opening _ _
    rw [split, word, tokens_brackets]
    rfl

theorem isBlank_eq_false_of_mem (identifier : isIdentifier name = true) (sizes : List Nat)
    {character : Char} (member : character ∈ name.toList ++ brackets sizes) :
    Text.isBlank character = false := by
  rcases List.mem_append.mp member with inName | inBrackets
  · exact isBlank_of_isWordCharacter ((exists_first_of_isIdentifier identifier).2 _ inName)
  · obtain ⟨size, _, inPair⟩ := List.mem_flatMap.mp inBrackets
    simp only [List.mem_cons, List.mem_append, List.not_mem_nil, or_false] at inPair
    rcases inPair with rfl | digit | rfl
    · decide
    · exact isBlank_of_isWordCharacter (isWordCharacter_of_isDigit
        (Nat.isDigit_of_mem_toDigits (by decide) (by decide) digit))
    · decide

/-- Brackets behind a name are read as arrays, the first of them as the outermost. -/
theorem directDeclarator_brackets (identifier : isIdentifier name = true) (sizes : List Nat)
    (type : CType) :
    DirectDeclarator (name :: sizes.flatMap bracketTokens) type name (ofDimensions sizes type) := by
  induction sizes using List.reverseRecOn generalizing type with
  | nil => exact .name identifier
  | append_singleton front last inductionHypothesis =>
    rw [ofDimensions_concat, List.flatMap_append, List.flatMap_singleton, ← List.cons_append]
    exact .array (inductionHypothesis (.array type last))

/-! ## Tokens left of the space -/

/-- The types of elements that are no arrays themselves. -/
inductive IsElement : CType → Prop
  | int32 : IsElement .int32
  | int64 : IsElement .int64
  | uint16 : IsElement .uint16
  | address : IsElement (.pointer (.const .void))
  | struct (number : Nat) : IsElement (.struct number)

/-- Whether characters in front of a declarator are read as a type. -/
structure Spells (characters : List Char) (type : CType) : Prop where
  starts : ∃ first rest, characters = first :: rest ∧ Text.isBlank first = false
  reads : ∃ specifiers stars base, tokens characters = specifiers ++ stars ∧
    Specifiers specifiers base ∧
    ∀ {declarator name declared}, Declarator declarator type name declared →
      Declarator (stars ++ declarator) base name declared

/-- Words that are specifiers of a type spell it without stars. -/
theorem spells_of_specifiers {characters : List Char} {words : List String}
    (starts : ∃ first rest, characters = first :: rest ∧ Text.isBlank first = false)
    (split : tokens characters = words) (named : Specifiers words type) :
    Spells characters type where
  starts := starts
  reads := ⟨words, [], type, by rw [split, List.append_nil], named, fun read => read⟩

theorem toList_struct (number : Nat) :
    (leftOfName (.struct number)).toList =
      "struct".toList ++ ' ' :: (structName number).toList := by
  rw [leftOfName, String.toList_append]
  rfl

theorem toList_constStruct (number : Nat) :
    (leftOfName (.const (.struct number))).toList =
      "const".toList ++ ' ' :: (leftOfName (.struct number)).toList := by
  rw [leftOfName, if_neg (by simp [isPointer]), String.toList_append]
  rfl

theorem tokens_structName (number : Nat) :
    tokens (structName number).toList = [structName number] := by
  have written : (structName number).toList = "Struct_".toList ++ Nat.toDigits 10 number := by
    rw [← Nat.toList_repr, ← String.toList_append]
    rfl
  rw [tokens_word (by simp [written]), String.ofList_toList]
  intro character member
  rw [written, List.mem_append] at member
  rcases member with front | digit
  · have letters : "Struct_".toList.all isWordCharacter = true := by decide
    exact List.all_eq_true.mp letters character front
  · exact isWordCharacter_of_isDigit (Nat.isDigit_of_mem_toDigits (by decide) (by decide) digit)

theorem tokens_struct (number : Nat) :
    tokens (leftOfName (.struct number)).toList = ["struct", structName number] := by
  rw [toList_struct, tokens_space, tokens_structName]
  rfl

theorem tokens_constStruct (number : Nat) :
    tokens (leftOfName (.const (.struct number))).toList =
      ["const", "struct", structName number] := by
  rw [toList_constStruct, tokens_space, tokens_struct]
  rfl

theorem spells_of_isElement (isElement : IsElement type) : Spells type.leftOfName.toList type := by
  cases isElement with
  | int32 => exact spells_of_specifiers ⟨_, _, rfl, by decide⟩ rfl (.plain .int32)
  | int64 => exact spells_of_specifiers ⟨_, _, rfl, by decide⟩ rfl (.plain .int64)
  | uint16 => exact spells_of_specifiers ⟨_, _, rfl, by decide⟩ rfl (.plain .uint16)
  | address =>
    exact ⟨⟨_, _, rfl, by decide⟩, ["const", "void"], ["*"], _, by decide,
      .constBefore (.plain .void), fun read => .pointer read⟩
  | struct number =>
    exact spells_of_specifiers ⟨'s', _, toList_struct number, by decide⟩ (tokens_struct number)
      (.plain (.struct number))

/-- The qualifier of an element stands in front of its type, that of an address behind the star. -/
theorem spells_constant (isElement : IsElement type) :
    Spells type.constant.leftOfName.toList type.constant := by
  cases isElement with
  | int32 => exact spells_of_specifiers ⟨_, _, rfl, by decide⟩ rfl (.constBefore (.plain .int32))
  | int64 => exact spells_of_specifiers ⟨_, _, rfl, by decide⟩ rfl (.constBefore (.plain .int64))
  | uint16 =>
    exact spells_of_specifiers ⟨_, _, rfl, by decide⟩ rfl (.constBefore (.plain .uint16))
  | address =>
    exact ⟨⟨_, _, rfl, by decide⟩, ["const", "void"], ["*", "const"], _, by decide,
      .constBefore (.plain .void), fun read => .constPointer read⟩
  | struct number =>
    exact spells_of_specifiers ⟨'c', _, toList_constStruct number, by decide⟩
      (tokens_constStruct number) (.constBefore (.plain (.struct number)))

/-! ## Written declarations -/

/-- Characters without blanks at their ends are not trimmed. -/
theorem trim_eq_self {characters : List Char}
    (first : ∀ character ∈ characters.head?, Text.isBlank character = false)
    (last : ∀ character ∈ characters.getLast?, Text.isBlank character = false) :
    Text.trim characters = characters := by
  have keepsFront : ∀ {part : List Char},
      (∀ character ∈ part.head?, Text.isBlank character = false) →
        part.dropWhile Text.isBlank = part := by
    intro part isFirst
    cases part with
    | nil => rfl
    | cons character rest => exact List.dropWhile_cons_of_neg (by simp [isFirst character rfl])
  rw [Text.trim, keepsFront first, Text.trimRight, keepsFront, List.reverse_reverse]
  rwa [List.head?_reverse]

/-- A declaration is what spells the innermost type, a space, the name and the dimensions. -/
theorem toList_declare (spells : Spells type.innermost.leftOfName.toList type.innermost)
    (isPlain : type.innermost.rightOfName = "") (identifier : isIdentifier name = true) :
    (type.declare name).toList = type.innermost.leftOfName.toList ++
      ' ' :: (name.toList ++ brackets type.dimensions.reverse) := by
  obtain ⟨⟨first, rest, starts, noBlank⟩, _⟩ := spells
  obtain ⟨isNonempty, _⟩ := exists_first_of_isIdentifier identifier
  have written : (s!"{type.leftOfName} {name}{type.rightOfName}").toList =
      type.innermost.leftOfName.toList ++
        ' ' :: (name.toList ++ brackets type.dimensions.reverse) := by
    have right := type.rightOfName_eq
    rw [isPlain] at right
    simp [← leftOfName_eq, right, toString]
  rw [declare, String.toList_ofList, written, trim_eq_self]
  · intro character isFirst
    rw [starts] at isFirst
    cases isFirst
    exact noBlank
  · intro character isLast
    have isNonempty : name.toList ++ brackets type.dimensions.reverse ≠ [] :=
      List.append_ne_nil_of_left_ne_nil isNonempty _
    rw [List.getLast?_append, List.getLast?_cons,
      List.getLast?_eq_some_getLast isNonempty] at isLast
    cases isLast
    exact isBlank_eq_false_of_mem identifier _ (List.getLast_mem isNonempty)

/-- A declaration is read as that of its name with the type whose dimensions are reversed. -/
theorem declares_reversed (spells : Spells type.innermost.leftOfName.toList type.innermost)
    (isPlain : type.innermost.rightOfName = "") (identifier : isIdentifier name = true) :
    Declares (type.declare name) name type.reversed := by
  obtain ⟨specifiers, stars, base, spelled, named, derives⟩ := spells.reads
  refine ⟨specifiers, stars ++ name :: type.dimensions.reverse.flatMap bracketTokens, base, ?_,
    named, derives (.direct (directDeclarator_brackets identifier _ _))⟩
  rw [toList_declare spells isPlain identifier, tokens_space, spelled,
    tokens_name_brackets identifier, List.append_assoc]

/-- A declaration that can be read at all is read in this way only. -/
theorem declares_iff (spells : Spells type.innermost.leftOfName.toList type.innermost)
    (isPlain : type.innermost.rightOfName = "") (identifier : isIdentifier name = true)
    {other : String} {declared : CType} :
    Declares (type.declare name) other declared ↔ other = name ∧ declared = type.reversed := by
  have declares := declares_reversed spells isPlain identifier
  constructor
  · intro otherDeclares
    exact otherDeclares.unique declares
  · rintro ⟨rfl, rfl⟩
    exact declares

/-! ## Types of storage types -/

theorem rightOfName_of_isElement (isElement : IsElement type) : type.rightOfName = "" := by
  cases isElement <;> rfl

theorem rightOfName_constant (isElement : IsElement type) : type.constant.rightOfName = "" := by
  cases isElement <;> rfl

theorem isElement_innermost_represent (structs : StructTable) :
    ∀ stored : DataType, IsElement (structs.represent stored).2.innermost
  | .i32 => .int32
  | .i64 => .int64
  | .u16 => .uint16
  | .ptr => .address
  | .array element _ => isElement_innermost_represent structs element
  | .struct _ => .struct _

theorem dimensions_represent (structs : StructTable) :
    ∀ stored : DataType, (structs.represent stored).2.dimensions = stored.dimensions
  | .i32 | .i64 | .u16 | .ptr | .struct _ => rfl
  | .array element length => congrArg (List.cons length) (dimensions_represent structs element)

/-- How a declaration of a name is read that is written for a type with some dimensions: as one of
that name alone, and of the type with its dimensions reversed. -/
structure DeclaresReversed (dimensions : List Nat) (type : CType) (name : String) : Prop where
  reading : ∀ other declared, Declares (type.declare name) other declared ↔
    other = name ∧ declared = ofDimensions dimensions.reverse type.innermost
  meant : type = ofDimensions dimensions type.innermost
  faithful : Declares (type.declare name) name type ↔ dimensions.reverse = dimensions

theorem declaresReversed_of_spells
    (spells : Spells type.innermost.leftOfName.toList type.innermost)
    (isPlain : type.innermost.rightOfName = "") (identifier : isIdentifier name = true) :
    DeclaresReversed type.dimensions type name where
  reading := fun _ _ => declares_iff spells isPlain identifier
  meant := type.ofDimensions_dimensions.symm
  faithful := by
    rw [declares_iff spells isPlain identifier, ← reversed_eq_self_iff, eq_comm (b := type)]
    exact and_iff_right rfl

/-! ## Main result -/

/-- The declaration of a name for what represents a storage type, qualified or not, is read in one
way: as that of the name with the dimensions of nested arrays in reverse order. So it declares the
type that was meant exactly if the dimensions read the same in both directions. -/
theorem declaresReversed_represent (structs : StructTable) (stored : DataType)
    (identifier : isIdentifier name = true) :
    DeclaresReversed stored.dimensions (structs.represent stored).2 name ∧
      DeclaresReversed stored.dimensions (structs.represent stored).2.constant name := by
  have isElement := isElement_innermost_represent structs stored
  rw [← dimensions_represent structs stored]
  constructor
  · exact declaresReversed_of_spells (spells_of_isElement isElement)
      (rightOfName_of_isElement isElement) identifier
  · have spells := spells_constant isElement
    have isPlain := rightOfName_constant isElement
    rw [← innermost_constant] at spells isPlain
    rw [← dimensions_constant]
    exact declaresReversed_of_spells spells isPlain identifier

example : (CType.array (.array .int32 3) 2).declare "rows" = "int32_t rows[3][2]" := by decide

/-- Two rows of three records. -/
def recordRows : DataType := .array (.array (.struct [.ptr, .u16]) 3) 2

theorem recordRows_declaresReversed :
    isIdentifier "rows" = true ∧
      DeclaresReversed [2, 3] (StructTable.represent [] recordRows).2 "rows" ∧
      DeclaresReversed [2, 3] (StructTable.represent [] recordRows).2.constant "rows" :=
  ⟨by decide, declaresReversed_represent [] recordRows (by decide)⟩

/-- Not every declaration declares the type it was written for. -/
theorem not_declares_represent :
    ¬∀ (structs : StructTable) (stored : DataType) (name : String), isIdentifier name = true →
      Declares ((structs.represent stored).2.declare name) name (structs.represent stored).2 := by
  intro faithful
  have isElement := isElement_innermost_represent [] recordRows
  have declares := faithful [] recordRows "rows" (by decide)
  rw [declares_iff (spells_of_isElement isElement) (rightOfName_of_isElement isElement)
    (by decide)] at declares
  exact absurd (congrArg dimensions declares.2) (by decide)

end Grammar

end CSource

end TypeRecords
