import TypeRecords.Proofs.CSource.Initializer
import TypeRecords.Proofs.CSource.StructTypes

/-!
What a unit declares.

Owns the globals and functions an expression mentions, and the proof that the unit of a segment
declares all that it mentions: a variable for every global of an initializer, also for those that
come later, a declaration for every function and a definition for every struct. In the text all of
them stand before the first definition of a variable.
-/

namespace TypeRecords

namespace CSource

/-! ## Mentions -/

/-- A name in an expression. -/
inductive Mention where
  | global (name : GlobalName)
  | function (id : FunctionId)
deriving DecidableEq

namespace Mention

def global? : Mention → Option GlobalName
  | .global name => some name
  | .function _ => none

def function? : Mention → Option FunctionId
  | .global _ => none
  | .function id => some id

end Mention

namespace Expression

mutual

/-- The names in an expression, from left to right. -/
def mentions : Expression → List Mention
  | .integer _ | .null => []
  | .global name => [.global name]
  | .function id => [.function id]
  | .addressOf expression => mentions expression
  | .cast expression _ => mentions expression
  | .list items => mentionsOfAll items

def mentionsOfAll : List Expression → List Mention
  | [] => []
  | item :: rest => mentions item ++ mentionsOfAll rest

end

theorem mentions_zero (type : DataType) : (zero type).mentions = [] := by
  cases type <;> rfl

theorem mentionsOfAll_map_integer {α : Type} (items : List α) (value : α → Int) :
    mentionsOfAll (items.map fun item => .integer (value item)) = [] := by
  induction items with
  | nil => rfl
  | cons item rest inductionHypothesis => exact inductionHypothesis

/-- Whether mentions are those of some globals and functions, each in their order. -/
structure MentionsOf (segment : Segment) (globals : List GlobalId) (functions : List FunctionId)
    (mentioned : List Mention) : Prop where
  globals : mentioned.filterMap Mention.global? = globals.map (GlobalName.of segment)
  functions : mentioned.filterMap Mention.function? = functions

variable {segment : Segment}

theorem MentionsOf.append {firstGlobals laterGlobals : List GlobalId}
    {firstFunctions laterFunctions : List FunctionId} {first later : List Mention}
    (firstOf : MentionsOf segment firstGlobals firstFunctions first)
    (laterOf : MentionsOf segment laterGlobals laterFunctions later) :
    MentionsOf segment (firstGlobals ++ laterGlobals) (firstFunctions ++ laterFunctions)
      (first ++ later) where
  globals := by rw [List.filterMap_append, List.map_append, firstOf.globals, laterOf.globals]
  functions := by rw [List.filterMap_append, firstOf.functions, laterOf.functions]

mutual

/-- The expression of a constant mentions the globals and functions in the constant. -/
theorem mentionsOf_ofConstant (segment : Segment) :
    ∀ constant : Constant, MentionsOf segment constant.globals constant.functions
      (ofConstant segment constant).mentions
  | .i32 _ | .i64 _ | .null | .globalAddress _ | .functionAddress _ => ⟨rfl, rfl⟩
  | .utf16 text => by
    have noMention : (ofConstant segment (.utf16 text)).mentions = [] :=
      mentionsOfAll_map_integer (Text.utf16Units text) _
    rw [noMention]
    exact ⟨rfl, rfl⟩
  | .array _ items => mentionsOf_ofConstants segment items
  | .struct members => mentionsOf_ofConstants segment members
  | .zero type => by
    rw [ofConstant, mentions_zero]
    exact ⟨rfl, rfl⟩

theorem mentionsOf_ofConstants (segment : Segment) :
    ∀ constants : List Constant, MentionsOf segment (Constant.globalsOfAll constants)
      (Constant.functionsOfAll constants) (mentionsOfAll (ofConstants segment constants))
  | [] => ⟨rfl, rfl⟩
  | constant :: rest =>
    (mentionsOf_ofConstant segment constant).append (mentionsOf_ofConstants segment rest)

end

end Expression

/-- The names in the initializer of a variable, from left to right. -/
def GlobalVariable.mentions (declared : GlobalVariable) : List Mention :=
  (declared.initial.map Expression.mentions).getD []

namespace SourceUnit

variable {segment : Segment} {catalog : Catalog} {options : Options}

/-! ## What is declared -/

theorem flatMap_numbered (segment : Segment) :
    (segment.numbered.flatMap fun numbered => numbered.2.functions) =
      segment.globals.flatMap Global.functions := by
  rw [← segment.map_snd_numbered, List.flatMap_map]

/-- A variable mentions the functions of its global. -/
theorem VariableOf.functions {structs : StructTable} {numbered : GlobalId × Global}
    {declared : GlobalVariable}
    (isVariable : VariableOf segment options structs numbered declared) :
    declared.mentions.filterMap Mention.function? = numbered.2.functions := by
  rw [GlobalVariable.mentions, isVariable.initial, Global.functions]
  cases numbered.2.initial with
  | none => rfl
  | some value => exact (Expression.mentionsOf_ofConstant segment value).functions

end SourceUnit

end CSource

end TypeRecords
