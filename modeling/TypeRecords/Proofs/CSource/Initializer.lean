import TypeRecords.Proofs.CSource.Translation
import TypeRecords.Proofs.Segment.Closed

/-!
Initializers of variables.

Owns what it means that an expression initializes a C type, and the proof that the expression of a
well-typed constant does so. Types and values are translated apart from each other, the types over a
table that grows. The proof follows the constant and never the table: all it needs is that the C
type represents the type of the constant in the end.
-/

namespace TypeRecords

/-- Whether every defined global has the type of its initial value, and the items of all arrays in
it have the element type of their array. -/
def Segment.WellTyped (segment : Segment) : Prop :=
  ∀ global ∈ segment.globals, ∀ value, global.initial = some value →
    global.type = value.type ∧ value.WellTyped

namespace CSource

namespace CType

/-- Whether a C type is an integer type, qualified or not, that holds a value. -/
def Holds : CType → Int → Prop
  | .int32, value => -0x80000000 ≤ value ∧ value < 0x80000000
  | .int64, value => -0x8000000000000000 ≤ value ∧ value < 0x8000000000000000
  | .uint16, value => 0 ≤ value ∧ value < 0x10000
  | .const type, value => type.Holds value
  | _, _ => False

/-- Whether the values of a C type have parts. -/
def IsAggregate : CType → Prop
  | .array .. | .struct _ => True
  | _ => False

theorem Holds.constant {type : CType} {value : Int} (holds : type.Holds value) :
    type.constant.Holds value := by
  cases type with
  | array => exact holds.elim
  | void | uint16 | int32 | int64 | pointer | const | struct => exact holds

end CType

/-! ## Conforming initializers -/

mutual

/-- Whether an expression, made from a constant, initializes a C type. The constant matters in one
place only: a list of a single zero stands for all parts of an aggregate where the constant is a
zero value. Any other list has one item for each part. -/
inductive Initializes (definitions : List StructDefinition) : Constant → Expression → CType → Prop
  | integer {constant : Constant} {value : Int} {type : CType} (holds : type.Holds value) :
      Initializes definitions constant (.integer value) type
  | null {constant : Constant} {target : CType} :
      Initializes definitions constant .null (.pointer target)
  | global {constant : Constant} {name : GlobalName} {target : CType} :
      Initializes definitions constant (.addressOf (.global name)) (.pointer target)
  | function {constant : Constant} {id : FunctionId} {target : CType} :
      Initializes definitions constant (.cast (.function id) (.pointer target)) (.pointer target)
  | zeros {zeroed : DataType} {type : CType} (aggregate : type.IsAggregate) :
      Initializes definitions (.zero zeroed) (.list [.integer 0]) type
  | units {text : String} {values : List Int} {element : CType}
      (each : ∀ value ∈ values, element.Holds value) :
      Initializes definitions (.utf16 text) (.list (values.map .integer))
        (.array element values.length)
  | array {itemType : DataType} {constants : List Constant} {items : List Expression}
      {element : CType} {size : Nat}
      (each : InitializesAll definitions constants items (List.replicate size element)) :
      Initializes definitions (.array itemType constants) (.list items) (.array element size)
  | struct {constants : List Constant} {items : List Expression} {definition : StructDefinition}
      (defined : definition ∈ definitions)
      (each : InitializesAll definitions constants items definition.members) :
      Initializes definitions (.struct constants) (.list items) (.struct definition.number)
  | qualified {constant : Constant} {expression : Expression} {type : CType}
      (plain : Initializes definitions constant expression type) :
      Initializes definitions constant expression (.const type)

/-- Whether expressions, made from constants, initialize C types, one by one. -/
inductive InitializesAll (definitions : List StructDefinition) :
    List Constant → List Expression → List CType → Prop
  | nil : InitializesAll definitions [] [] []
  | cons {constant : Constant} {constants : List Constant} {item : Expression}
      {items : List Expression} {type : CType} {types : List CType}
      (first : Initializes definitions constant item type)
      (later : InitializesAll definitions constants items types) :
      InitializesAll definitions (constant :: constants) (item :: items) (type :: types)

end

variable {definitions : List StructDefinition}

mutual

/-- What initializes a type initializes its const-qualified version. -/
theorem Initializes.constant :
    ∀ {constant : Constant} {expression : Expression} {type : CType},
      Initializes definitions constant expression type →
        Initializes definitions constant expression type.constant
  | _, _, _, .integer holds => .integer holds.constant
  | _, _, _, .null => .qualified .null
  | _, _, _, .global => .qualified .global
  | _, _, _, .function => .qualified .function
  | _, _, .array _ _, .zeros _ => .zeros trivial
  | _, _, .struct _, .zeros _ => .qualified (.zeros trivial)
  | _, _, _, .units each => .units fun value listed => (each value listed).constant
  | _, _, .array element size, .array each => by
    have qualified := each.constant
    rw [List.map_replicate] at qualified
    exact .array qualified
  | _, _, _, .struct defined each => .qualified (.struct defined each)
  | _, _, _, .qualified plain => .qualified plain

theorem InitializesAll.constant :
    ∀ {constants : List Constant} {items : List Expression} {types : List CType},
      InitializesAll definitions constants items types →
        InitializesAll definitions constants items (types.map CType.constant)
  | _, _, _, .nil => .nil
  | _, _, _, .cons first later => .cons first.constant later.constant

end

/-! ## The expression of a constant -/

variable {unit : SourceUnit}

/-- The types of the items of an array are represented by its element type. -/
theorem representsAll_types {structs : StructTable} {items : List Constant} {element : DataType}
    {elementType : CType} (same : ∀ item ∈ items, item.type = element)
    (each : structs.Represents element elementType) :
    structs.RepresentsAll (Constant.types items) (List.replicate items.length elementType) := by
  induction items with
  | nil => exact .nil
  | cons item rest inductionHypothesis =>
    rw [List.forall_mem_cons] at same
    have first : structs.Represents item.type elementType := by
      rw [same.1]
      exact each
    exact .cons first (inductionHypothesis same.2)

/-- The code units of a text initialize an array of their number. -/
theorem initializes_units (text : String) :
    Initializes definitions (.utf16 text)
      (.list ((Text.utf16Units text).map fun unit => .integer unit.toNat))
      (.array .uint16 (Text.utf16Units text).length) := by
  have each : ∀ value ∈ (Text.utf16Units text).map fun unit => (unit.toNat : Int),
      CType.uint16.Holds value := by
    intro value listed
    obtain ⟨codeUnit, _, rfl⟩ := List.mem_map.mp listed
    have below := codeUnit.toNat_lt
    simp only [CType.Holds]
    omega
  simpa [Function.comp_def] using Initializes.units each

/-- The zero value of a type initializes it. -/
theorem initializes_zero {zeroed : DataType} {type : CType}
    (represents : unit.structs.Represents zeroed type) :
    Initializes unit.structDefinitions (.zero zeroed) (.zero zeroed) type := by
  cases represents with
  | i32 | i64 | u16 => exact .integer (by simp [CType.Holds])
  | ptr => exact .null
  | array | struct => exact .zeros trivial

mutual

/-- The expression of a well-typed constant initializes what represents the type of the constant. -/
theorem initializes_ofConstant (segment : Segment) :
    ∀ (constant : Constant) {type : CType}, constant.WellTyped →
      unit.structs.Represents constant.type type →
        Initializes unit.structDefinitions constant (Expression.ofConstant segment constant) type
  | .i32 value, _, _, .i32 => .integer ⟨value.le_toInt, value.toInt_lt⟩
  | .i64 value, _, _, .i64 => .integer ⟨value.le_toInt, value.toInt_lt⟩
  | .null, _, _, .ptr => .null
  | .globalAddress _, _, _, .ptr => .global
  | .functionAddress _, _, _, .ptr => .function
  | .utf16 text, _, _, .array .u16 => initializes_units text
  | .array element items, _, wellTyped, .array each =>
    .array (initializesAll_ofConstants segment items wellTyped.2
      (representsAll_types wellTyped.1 each))
  | .struct members, _, wellTyped,
    @StructTable.Represents.struct _ _ types number defined each => by
    have isDefined : (⟨number, types, none⟩ : StructDefinition) ∈ unit.structDefinitions :=
      SourceUnit.mem_structDefinitions.mpr ⟨defined, rfl⟩
    exact .struct isDefined (initializesAll_ofConstants segment members wellTyped each)
  | .zero _, _, _, represents => initializes_zero represents

theorem initializesAll_ofConstants (segment : Segment) :
    ∀ (constants : List Constant) {types : List CType}, Constant.AllWellTyped constants →
      unit.structs.RepresentsAll (Constant.types constants) types →
        InitializesAll unit.structDefinitions constants
          (Expression.ofConstants segment constants) types
  | [], _, _, .nil => .nil
  | constant :: rest, _, wellTyped, .cons first later =>
    .cons (initializes_ofConstant segment constant wellTyped.1 first)
      (initializesAll_ofConstants segment rest wellTyped.2 later)

end

/-! ## Main result -/

/-- In the unit of a well-typed segment, the variable of each defined global has an initializer that
fits its type, also as it is qualified in the declaration. -/
theorem initializes_ofSegment {segment : Segment} (wellTyped : segment.WellTyped)
    (catalog : Catalog) (options : Options) :
    ∀ {id : GlobalId} {global : Global} {value : Constant}, segment.get? id = some global →
      global.initial = some value → ∃ declared initial,
        (SourceUnit.ofSegment segment catalog options).globals[id.number]? = some declared ∧
        declared.initial = some initial ∧
        Initializes (SourceUnit.ofSegment segment catalog options).structDefinitions value initial
          declared.type ∧
        Initializes (SourceUnit.ofSegment segment catalog options).structDefinitions value initial
          declared.qualifiedType := by
  intro id global value found defined
  obtain ⟨declared, located, isVariable⟩ :=
    SourceUnit.exists_variableOf segment catalog options found
  have typed := wellTyped global (List.mem_of_getElem? found) value defined
  have represents := isVariable.type
  rw [typed.1] at represents
  have fits := initializes_ofConstant segment value typed.2 represents
  refine ⟨declared, _, located, ?_, fits, ?_⟩
  · rw [isVariable.initial, defined]
    rfl
  · rw [GlobalVariable.qualifiedType]
    split
    · exact fits.constant
    · exact fits

/-- A table of functions, a record with a struct, a text and zero values in it, its exported
address, an empty array of structs, and a global that is only declared. -/
def sampleSegment : Segment where
  globals := [
    Segment.placedGlobal "methods"
      (.array .ptr [.functionAddress ⟨3⟩, .null, .functionAddress ⟨1⟩]),
    Segment.placedGlobal "record" (.struct [.i64 (-1), .globalAddress ⟨0⟩,
      .struct [.i32 1, .utf16 "Hi"], .zero (.array (.struct [.ptr, .u16]) 2)]),
    ⟨"Shape", .ptr, some (.globalAddress ⟨1⟩), true, .exported⟩,
    Segment.placedGlobal "fields" (.array (.struct [.i64, .i32]) []),
    ⟨"open", .struct [.ptr, .u16], none, false, .internal⟩]
  names := .ofList
    [("methods", ⟨0⟩), ("record", ⟨1⟩), ("Shape", ⟨2⟩), ("fields", ⟨3⟩), ("open", ⟨4⟩)]
  used := [⟨2⟩]
  strings := .empty

theorem sampleSegment_wellTyped : sampleSegment.WellTyped := by
  simp [Segment.WellTyped, sampleSegment, Segment.placedGlobal, Constant.type, Constant.types,
    Constant.WellTyped, Constant.AllWellTyped]

theorem sampleSegment_initializes :
    sampleSegment.WellTyped ∧ ∃ global value, sampleSegment.get? ⟨1⟩ = some global ∧
      global.initial = some value ∧ ∃ declared initial,
        (SourceUnit.ofSegment sampleSegment .empty .standard).globals[1]? = some declared ∧
        declared.initial = some initial ∧
        Initializes (SourceUnit.ofSegment sampleSegment .empty .standard).structDefinitions value
          initial declared.type ∧
        Initializes (SourceUnit.ofSegment sampleSegment .empty .standard).structDefinitions value
          initial declared.qualifiedType :=
  ⟨sampleSegment_wellTyped, _, _, rfl, rfl,
    initializes_ofSegment sampleSegment_wellTyped .empty .standard rfl rfl⟩

end CSource

end TypeRecords
