import Mathlib.Data.List.SplitBy
import TypeRecords.CSource.Type
import TypeRecords.Proofs.Segment.Names

/-!
Declarations as C reads them.

Owns the tokens of a declaration, the rules by which C derives from them which name is declared with
which type, and the proof that a declaration is read in one way at most. Declarators are read from
the outside inwards: each star and each pair of brackets that is taken off is put around the type
that the rest of the declarator is read with. Brackets bind closer than stars, and what stands in
parentheses is read like a declarator of its own. Of the rules there are those for the types that
this library writes; function declarators, bit fields and sizes other than plain decimal numbers
are left out.
-/

namespace TypeRecords.CSource.Grammar

/-! ## Tokens -/

/-- Whether a character can stand in a word. Which characters beyond ASCII an implementation admits
is left to it, so all of them are taken but blanks. -/
def isWordCharacter (character : Char) : Bool :=
  character.isAlphanum || character == '_' ||
    (0x80 ≤ character.toNat && !Text.isBlank character)

/-- Whether a character only separates tokens. -/
def isSpace (character : Char) : Bool := [' ', '\t', '\n', '\x0b', '\x0c'].contains character

/-- Whether two neighbours stand in one token. -/
def joins (left right : Char) : Bool := isWordCharacter left && isWordCharacter right

/-- The tokens of a declaration: each longest run of word characters, and each other character by
itself unless it is a space. -/
def tokens (characters : List Char) : List String :=
  ((characters.splitBy joins).filter fun run => !run.all isSpace).map String.ofList

theorem isSpace_of_isWordCharacter {character : Char} (inWord : isWordCharacter character = true) :
    isSpace character = false := by
  by_contra isSpace
  simp only [Grammar.isSpace, List.contains_eq_mem, List.mem_cons, List.not_mem_nil, or_false,
    Bool.not_eq_false, decide_eq_true_eq] at isSpace
  rcases isSpace with rfl | rfl | rfl | rfl | rfl <;> exact absurd inWord (by decide)

theorem tokens_append {left right : List Char}
    (apart : ∀ last ∈ left.getLast?, ∀ first ∈ right.head?, joins last first = false) :
    tokens (left ++ right) = tokens left ++ tokens right := by
  rw [tokens, List.splitBy_append apart, List.filter_append, List.map_append]
  rfl

/-- A character that is in no word ends the token before it. -/
theorem tokens_append_cons {mark : Char} (noWord : isWordCharacter mark = false)
    (left right : List Char) :
    tokens (left ++ mark :: right) = tokens left ++ tokens (mark :: right) := by
  apply tokens_append
  intro last _ first isFirst
  cases isFirst
  rw [joins, noWord, Bool.and_false]

/-- A character that is in no word starts a new token behind it. -/
theorem tokens_cons {mark : Char} (noWord : isWordCharacter mark = false) (rest : List Char) :
    tokens (mark :: rest) = tokens [mark] ++ tokens rest := by
  rw [← List.singleton_append]
  refine tokens_append fun last isLast first _ => ?_
  obtain rfl : mark = last := by simpa using isLast
  rw [joins, noWord, Bool.false_and]

theorem tokens_space (left right : List Char) :
    tokens (left ++ ' ' :: right) = tokens left ++ tokens right := by
  have noWord : isWordCharacter ' ' = false := by decide
  rw [tokens_append_cons noWord, tokens_cons noWord]
  rfl

theorem tokens_word {word : List Char} (isNonempty : word ≠ [])
    (characters : ∀ character ∈ word, isWordCharacter character = true) :
    tokens word = [String.ofList word] := by
  have joined : word.Pairwise fun left right => joins left right = true := by
    refine List.pairwise_of_forall_mem_list fun left leftMember right rightMember => ?_
    rw [joins, characters left leftMember, characters right rightMember, Bool.and_self]
  have isWritten : word.all isSpace = false := by
    cases word with
    | nil => exact absurd rfl isNonempty
    | cons first rest =>
      rw [List.all_cons, isSpace_of_isWordCharacter (characters first List.mem_cons_self),
        Bool.false_and]
  rw [tokens, List.splitBy_of_isChain isNonempty joined.isChain]
  simp [isWritten]

/-! ## Words -/

/-- The words that are no identifiers. -/
def keywords : List String := [
  "auto", "break", "case", "char", "const", "continue", "default", "do", "double", "else", "enum",
  "extern", "float", "for", "goto", "if", "inline", "int", "long", "register", "restrict",
  "return", "short", "signed", "sizeof", "static", "struct", "switch", "typedef", "union",
  "unsigned", "void", "volatile", "while", "_Alignas", "_Alignof", "_Atomic", "_Bool", "_Complex",
  "_Generic", "_Imaginary", "_Noreturn", "_Static_assert", "_Thread_local"]

/-- Whether a text is an identifier. -/
def isIdentifier (text : String) : Bool :=
  match text.toList with
  | [] => false
  | first :: rest =>
    !first.isDigit && (first :: rest).all isWordCharacter && !keywords.contains text

/-! ## Specifiers -/

/-- The words that name a type. -/
inductive TypeSpecifier : List String → CType → Prop
  | void : TypeSpecifier ["void"] .void
  | uint16 : TypeSpecifier ["uint16_t"] .uint16
  | int32 : TypeSpecifier ["int32_t"] .int32
  | int64 : TypeSpecifier ["int64_t"] .int64
  | struct (number : Nat) : TypeSpecifier ["struct", structName number] (.struct number)

/-- The words in front of a declarator: those that name a type, and qualifiers on either side. A
qualifier that is repeated counts once. -/
inductive Specifiers : List String → CType → Prop
  | plain {words : List String} {type : CType} (named : TypeSpecifier words type) :
      Specifiers words type
  | constBefore {words : List String} {type : CType} (others : Specifiers words type) :
      Specifiers ("const" :: words) type.constant
  | constBehind {words : List String} {type : CType} (others : Specifiers words type) :
      Specifiers (words ++ ["const"]) type.constant

/-! ## Declarators -/

mutual

/-- Whether a declarator behind specifiers of a type declares a name with a type. -/
inductive Declarator : List String → CType → String → CType → Prop
  | direct {words : List String} {type declared : CType} {name : String}
      (inner : DirectDeclarator words type name declared) : Declarator words type name declared
  | pointer {words : List String} {type declared : CType} {name : String}
      (inner : Declarator words (.pointer type) name declared) :
      Declarator ("*" :: words) type name declared
  | constPointer {words : List String} {type declared : CType} {name : String}
      (inner : Declarator words (.const (.pointer type)) name declared) :
      Declarator ("*" :: "const" :: words) type name declared

/-- Whether a declarator without stars in front does so. -/
inductive DirectDeclarator : List String → CType → String → CType → Prop
  | name {type : CType} {name : String} (identifier : isIdentifier name = true) :
      DirectDeclarator [name] type name type
  | grouped {words : List String} {type declared : CType} {name : String}
      (inner : Declarator words type name declared) :
      DirectDeclarator ("(" :: (words ++ [")"])) type name declared
  | array {words : List String} {type declared : CType} {name : String} {size : Nat}
      (inner : DirectDeclarator words (.array type size) name declared) :
      DirectDeclarator (words ++ ["[", size.repr, "]"]) type name declared

end

/-- Whether a text, read as a declaration, declares a name with a type. -/
def Declares (text : String) (name : String) (type : CType) : Prop :=
  ∃ specifiers declarator base, tokens text.toList = specifiers ++ declarator ∧
    Specifiers specifiers base ∧ Declarator declarator base name type

/-! ## One reading at most -/

theorem structName_injective {first second : Nat} (same : structName first = structName second) :
    first = second :=
  Segment.eq_of_repr_eq (String.append_right_inj (s := "Struct_") |>.mp same)

theorem TypeSpecifier.eq_of_append {words whole rest : List String} {type other : CType}
    (named : TypeSpecifier words type) (otherNamed : TypeSpecifier whole other)
    (same : whole = words ++ rest) : rest = [] ∧ type = other := by
  cases named with
  | struct number =>
    cases otherNamed with
    | struct otherNumber =>
      simp only [List.cons_append, List.nil_append, List.cons.injEq, true_and] at same
      exact ⟨same.2.symm, congrArg CType.struct (structName_injective same.1).symm⟩
    | void | uint16 | int32 | int64 => simp at same
  | void | uint16 | int32 | int64 => cases otherNamed <;> simp_all

theorem TypeSpecifier.const_notMem {words : List String} {type : CType}
    (named : TypeSpecifier words type) : "const" ∉ words := by
  cases named with
  | void | uint16 | int32 | int64 => decide
  | struct number =>
    have differ : "const" ≠ structName number := by
      intro same
      have sameFirst := congrArg (fun text => text.toList.head?) same
      simp [structName, toString] at sameFirst
    simpa using differ

theorem constant_constant (type : CType) : type.constant.constant = type.constant := by
  induction type with
  | array element size inductionHypothesis =>
    exact congrArg (fun element => CType.array element size) inductionHypothesis
  | void | uint16 | int32 | int64 | pointer | const | struct => rfl

/-- Specifiers are the words of a type among qualifiers. -/
theorem Specifiers.exists_typeSpecifier {words : List String} {type : CType}
    (specifiers : Specifiers words type) :
    ∃ plain, TypeSpecifier (words.filter (· ≠ "const")) plain ∧
      type = if "const" ∈ words then plain.constant else plain := by
  induction specifiers with
  | @plain words type named =>
    have kept : words.filter (· ≠ "const") = words := by
      refine List.filter_eq_self.mpr fun word listed => decide_eq_true ?_
      rintro rfl
      exact named.const_notMem listed
    rw [kept]
    exact ⟨type, named, (if_neg named.const_notMem).symm⟩
  | constBefore _ inductionHypothesis =>
    obtain ⟨plain, named, rfl⟩ := inductionHypothesis
    refine ⟨plain, by simpa using named, ?_⟩
    rw [if_pos List.mem_cons_self]
    split
    · exact constant_constant plain
    · rfl
  | @constBehind words _ _ inductionHypothesis =>
    obtain ⟨plain, named, rfl⟩ := inductionHypothesis
    refine ⟨plain, by simpa using named, ?_⟩
    rw [if_pos (show "const" ∈ words ++ ["const"] by simp)]
    split
    · exact constant_constant plain
    · rfl

/-- No specifiers are continued by a word that is no qualifier. -/
theorem Specifiers.eq_of_append {words rest : List String} {type other : CType}
    (specifiers : Specifiers words type) (others : Specifiers (words ++ rest) other)
    (starts : ∀ word ∈ rest.head?, word ≠ "const") : rest = [] ∧ type = other := by
  obtain ⟨plain, named, rfl⟩ := specifiers.exists_typeSpecifier
  obtain ⟨otherPlain, otherNamed, rfl⟩ := others.exists_typeSpecifier
  obtain ⟨noMore, samePlain⟩ := named.eq_of_append otherNamed (List.filter_append words rest)
  cases rest with
  | nil => exact ⟨rfl, by rw [List.append_nil, samePlain]⟩
  | cons word later =>
    have isQualifier := List.filter_eq_nil_iff.mp noMore word List.mem_cons_self
    exact absurd (starts word rfl) (by simpa using isQualifier)

theorem DirectDeclarator.exists_head {words : List String} {type declared : CType} {name : String} :
    DirectDeclarator words type name declared →
      ∃ first rest, words = first :: rest ∧ (first = "(" ∨ isIdentifier first = true)
  | .name identifier => ⟨_, _, rfl, .inr identifier⟩
  | .grouped _ => ⟨_, _, rfl, .inl rfl⟩
  | .array inner => by
    obtain ⟨first, rest, rfl, starts⟩ := inner.exists_head
    exact ⟨first, rest ++ _, rfl, starts⟩

theorem DirectDeclarator.head_ne {words : List String} {type declared : CType} {name : String}
    (direct : DirectDeclarator words type name declared) :
    ∀ word ∈ words.head?, word ≠ "*" ∧ word ≠ "const" := by
  obtain ⟨first, rest, rfl, starts⟩ := direct.exists_head
  intro word isFirst
  cases isFirst
  constructor
  · rintro rfl
    rcases starts with same | identifier
    · exact absurd same (by decide)
    · exact absurd identifier (by decide)
  · rintro rfl
    rcases starts with same | identifier
    · exact absurd same (by decide)
    · exact absurd identifier (by decide)

theorem Declarator.head_ne {words : List String} {type declared : CType} {name : String}
    (declarator : Declarator words type name declared) :
    ∀ word ∈ words.head?, word ≠ "const" := by
  cases declarator with
  | direct inner => exact fun word isFirst => (inner.head_ne word isFirst).2
  | pointer | constPointer =>
    intro word isFirst
    cases isFirst
    decide

mutual

theorem Declarator.unique :
    ∀ {words others : List String} {type declared otherDeclared : CType} {name other : String},
      Declarator words type name declared → Declarator others type other otherDeclared →
        words = others → name = other ∧ declared = otherDeclared
  | _, _, _, _, _, _, _, .direct inner, second, same => by
    cases second with
    | direct otherInner => exact inner.unique otherInner same
    | pointer | constPointer => exact absurd rfl (inner.head_ne "*" (by rw [same]; rfl)).1
  | _, _, _, _, _, _, _, .pointer inner, second, same => by
    cases second with
    | direct otherInner => exact absurd rfl (otherInner.head_ne "*" (by rw [← same]; rfl)).1
    | pointer otherInner => exact inner.unique otherInner (List.cons.inj same).2
    | constPointer =>
      exact absurd rfl (inner.head_ne "const" (by rw [(List.cons.inj same).2]; rfl))
  | _, _, _, _, _, _, _, .constPointer inner, second, same => by
    cases second with
    | direct otherInner => exact absurd rfl (otherInner.head_ne "*" (by rw [← same]; rfl)).1
    | pointer otherInner =>
      exact absurd rfl (otherInner.head_ne "const" (by rw [← (List.cons.inj same).2]; rfl))
    | constPointer otherInner =>
      exact inner.unique otherInner (List.cons.inj (List.cons.inj same).2).2

theorem DirectDeclarator.unique :
    ∀ {words others : List String} {type declared otherDeclared : CType} {name other : String},
      DirectDeclarator words type name declared → DirectDeclarator others type other otherDeclared →
        words = others → name = other ∧ declared = otherDeclared
  | _, _, _, _, _, _, _, .name _, second, same => by
    cases second with
    | name => exact ⟨List.head_eq_of_cons_eq same, rfl⟩
    | grouped => simp at same
    | array inner =>
      have sameLength := congrArg List.length same
      simp at sameLength
  | _, _, _, _, _, _, _, .grouped inner, second, same => by
    cases second with
    | name => simp at same
    | grouped otherInner =>
      exact inner.unique otherInner (List.append_cancel_right (List.cons.inj same).2)
    | array =>
      have sameLast := congrArg List.getLast? same
      simp [List.getLast?_cons] at sameLast
  | _, _, _, _, _, _, _, .array inner, second, same => by
    cases second with
    | name =>
      have sameLength := congrArg List.length same
      simp at sameLength
    | grouped =>
      have sameLast := congrArg List.getLast? same
      simp [List.getLast?_cons] at sameLast
    | array otherInner =>
      obtain ⟨sameWords, sameEnd⟩ := List.append_inj' same rfl
      have sameSize := Segment.eq_of_repr_eq (List.cons.inj (List.cons.inj sameEnd).2).1
      subst sameSize
      exact inner.unique otherInner sameWords

end

/-- A declaration declares one name with one type. -/
theorem Declares.unique {text name other : String} {type otherType : CType}
    (declares : Declares text name type) (otherDeclares : Declares text other otherType) :
    name = other ∧ type = otherType := by
  obtain ⟨specifiers, declarator, base, split, named, derived⟩ := declares
  obtain ⟨otherSpecifiers, otherDeclarator, otherBase, otherSplit, otherNamed, otherDerived⟩ :=
    otherDeclares
  rw [split] at otherSplit
  -- What one reading has more of specifiers is the start of the other one's declarator.
  rcases List.append_eq_append_iff.mp otherSplit with ⟨more, rfl, rfl⟩ | ⟨more, rfl, rfl⟩
  · have starts := derived.head_ne
    obtain ⟨rfl, rfl⟩ := named.eq_of_append otherNamed fun word isFirst =>
      starts word (List.mem_head?_append_of_mem_head? isFirst)
    exact derived.unique otherDerived rfl
  · have starts := otherDerived.head_ne
    obtain ⟨rfl, rfl⟩ := otherNamed.eq_of_append named fun word isFirst =>
      starts word (List.mem_head?_append_of_mem_head? isFirst)
    exact derived.unique otherDerived rfl

end TypeRecords.CSource.Grammar
