import Mathlib.Algebra.Group.Nat.Defs
import Mathlib.Data.List.Forall2
import TypeRecords.Class.Stored
import TypeRecords.Segment.Stored

/-!
Stored values and their shapes.

Owns what it means that a value belongs to a shape, that a machine can hold it, and the proof that
what is stored of a type belongs to the shape of the type. The two file formats are proved against
values of a shape only, once for all types. The size of maps is the one bound that a shape does not
see to by itself: a file announces it before the entries come.
-/

namespace TypeRecords.Wire

/-! ## Values of a shape -/

/-- Whether a value belongs where a shape is. The alternatives of a choice are numbered with 32
bits, and a map has no more entries than one can be set up for. -/
inductive HasShape : Shape → Value → Prop
  | flag {value : Bool} : HasShape .flag (.flag value)
  | word {number : Nat} : HasShape .word (.word number)
  | int32 {number : Int32} : HasShape .int32 (.int32 number)
  | int64 {number : Int64} : HasShape .int64 (.int64 number)
  | text {text : String} : HasShape .text (.text text)
  | absent {item : Shape} : HasShape (.optional item) .absent
  | present {item : Shape} {value : Value} (inner : HasShape item value) :
      HasShape (.optional item) (.present value)
  | sequence {item : Shape} {items : List Value} (each : ∀ value ∈ items, HasShape item value) :
      HasShape (.sequence item) (.sequence items)
  | mapping {key value : Shape} {entries : List (Value × Value)}
      (small : entries.length ≤ Binary.mapLimit) (keys : ∀ entry ∈ entries, HasShape key entry.1)
      (values : ∀ entry ∈ entries, HasShape value entry.2) :
      HasShape (.mapping key value)
        (.sequence (entries.map fun entry => .record [entry.1, entry.2]))
  | record {typeName : String} {fields : List (String × Shape)} {values : List Value}
      (sameLength : fields.length = values.length)
      (each : ∀ pair ∈ fields.zip values, HasShape pair.1.2 pair.2) :
      HasShape (.record typeName fields) (.record values)
  | variant {shape : Shape} {typeName name : String} {variants : List (String × List Shape)}
      {index : Nat} {shapes : List Shape} {payload : List Value}
      (isChoice : shape.unfolded = .choice typeName variants)
      (located : variants[index]? = some (name, shapes)) (small : index < 2 ^ 32)
      (sameLength : shapes.length = payload.length)
      (each : ∀ pair ∈ shapes.zip payload, HasShape pair.1 pair.2) :
      HasShape shape (.variant index payload)

namespace Value

mutual

/-- Whether a value is one of a machine with 64-bit words: its numbers are words, and its texts and
lists are no longer than a word can count. -/
def Bounded : Value → Prop
  | .flag _ | .int32 _ | .int64 _ | .absent => True
  | .word number => number < 2 ^ 64
  | .text content => content.utf8ByteSize < 2 ^ 64
  | .present value => value.Bounded
  | .sequence items => items.length < 2 ^ 64 ∧ AllBounded items
  | .record fields => AllBounded fields
  | .variant _ payload => AllBounded payload

def AllBounded : List Value → Prop
  | [] => True
  | value :: rest => value.Bounded ∧ AllBounded rest

end

mutual

instance decidableBounded : (value : Value) → Decidable value.Bounded
  | .flag _ | .int32 _ | .int64 _ | .absent => isTrue trivial
  | .word number => inferInstanceAs (Decidable (number < 2 ^ 64))
  | .text content => inferInstanceAs (Decidable (content.utf8ByteSize < 2 ^ 64))
  | .present value => decidableBounded value
  | .sequence items =>
    let := decidableAllBounded items
    inferInstanceAs (Decidable (items.length < 2 ^ 64 ∧ AllBounded items))
  | .record fields => decidableAllBounded fields
  | .variant _ payload => decidableAllBounded payload

instance decidableAllBounded : (values : List Value) → Decidable (AllBounded values)
  | [] => isTrue trivial
  | value :: rest =>
    let := decidableBounded value
    let := decidableAllBounded rest
    inferInstanceAs (Decidable (value.Bounded ∧ AllBounded rest))

end

theorem allBounded_iff {values : List Value} :
    AllBounded values ↔ ∀ value ∈ values, value.Bounded := by
  induction values with
  | nil => simp [AllBounded]
  | cons value rest inductionHypothesis =>
    rw [AllBounded, inductionHypothesis, List.forall_mem_cons]

end Value

/-! ## What is stored -/

namespace Storable

/-- A type whose stored values belong to its shape. -/
class Shaped (α : Type) [Storable α] : Prop where
  hasShape (value : α) : HasShape (shape α) (toValue value)

open Shaped (hasShape)

instance : Shaped String := ⟨fun _ => .text⟩

instance : Shaped ClassId := ⟨fun _ => .word⟩

instance : Shaped FunctionId := ⟨fun _ => .word⟩

instance : Shaped GlobalId := ⟨fun _ => .word⟩

section Containers

variable {α κ : Type} [Storable α] [Storable κ] [Shaped α] [Shaped κ]

instance : Shaped (Option α) where
  hasShape
    | none => .absent
    | some value => .present (hasShape value)

instance : Shaped (List α) where
  hasShape items := .sequence <| by
    intro value member
    obtain ⟨item, _, rfl⟩ := List.mem_map.mp member
    exact hasShape item

/-- A map that is not larger than one can be set up for. -/
theorem hasShape_map [DecidableEq κ] {map : OrderedMap κ α} (small : map.size ≤ Binary.mapLimit) :
    HasShape (shape (OrderedMap κ α)) (toValue map) := by
  have stored : toValue map = .sequence ((map.entries.map fun entry =>
      (toValue entry.1, toValue entry.2)).map fun entry => .record [entry.1, entry.2]) := by
    rw [List.map_map]
    rfl
  rw [stored]
  refine .mapping (by rw [List.length_map]; exact small) ?_ ?_
  · intro entry member
    obtain ⟨original, _, rfl⟩ := List.mem_map.mp member
    exact hasShape original.1
  · intro entry member
    obtain ⟨original, _, rfl⟩ := List.mem_map.mp member
    exact hasShape original.2

end Containers

/-- The fields of a record belong to it one by one. -/
theorem hasShape_record {typeName : String} {fields : List (String × Shape)}
    {values : List Value}
    (fit : List.Forall₂ (fun field value => HasShape field.2 value) fields values) :
    HasShape (.record typeName fields) (.record values) := by
  obtain ⟨sameLength, each⟩ := List.forall₂_iff_zip.mp fit
  exact .record sameLength fun _ member => each member

/-- An alternative without values. -/
theorem hasShape_unit {shape : Shape} {typeName name : String}
    {variants : List (String × List Shape)} {index : Nat}
    (isChoice : shape.unfolded = .choice typeName variants)
    (located : variants[index]? = some (name, [])) (small : index < 2 ^ 32) :
    HasShape shape (.variant index []) :=
  .variant isChoice located small rfl (by simp)

/-- An alternative with one value. -/
theorem hasShape_single {shape : Shape} {typeName name : String}
    {variants : List (String × List Shape)} {index : Nat} {item : Shape} {value : Value}
    (isChoice : shape.unfolded = .choice typeName variants)
    (located : variants[index]? = some (name, [item])) (small : index < 2 ^ 32)
    (inner : HasShape item value) :
    HasShape shape (.variant index [value]) :=
  .variant isChoice located small rfl (by simpa using inner)

/-! ## Classes -/

instance : Shaped QualifiedName where
  hasShape name := hasShape_record (.cons (hasShape name.parts) .nil)

theorem hasShape_valueType (type : ValueType) :
    HasShape (.named .valueType) (valueTypeToValue type) := by
  induction type with
  | pointer target inductionHypothesis =>
    exact hasShape_single rfl rfl (by decide) inductionHypothesis
  | object id => exact hasShape_single rfl rfl (by decide) .word
  | _ => exact hasShape_unit rfl rfl (by decide)

instance : Shaped ValueType := ⟨hasShape_valueType⟩

instance : Shaped ClassKind where
  hasShape kind := by cases kind <;> exact hasShape_unit rfl rfl (by decide)

instance : Shaped Modality where
  hasShape modality := by cases modality <;> exact hasShape_unit rfl rfl (by decide)

instance : Shaped ClassScope where
  hasShape
    | .nested _ => hasShape_single rfl rfl (by decide) .word
    | .topLevel | .functionBody | .anonymous => hasShape_unit rfl rfl (by decide)

instance : Shaped Implementation where
  hasShape implementation := by
    cases implementation <;> exact hasShape_unit rfl rfl (by decide)

instance : Shaped FieldDefinition where
  hasShape field := hasShape_record (.cons .text (.cons (hasShape field.type) .nil))

instance : Shaped MethodDefinition where
  hasShape method := hasShape_record
    (.cons .text (.cons (hasShape method.implementation) (.cons (hasShape method.function)
      (.cons .flag .nil))))

instance : Shaped ClassDefinition where
  hasShape definition := hasShape_record
    (.cons (hasShape definition.name) (.cons (hasShape definition.kind)
      (.cons (hasShape definition.modality) (.cons (hasShape definition.scope)
        (.cons (hasShape definition.superclass) (.cons (hasShape definition.interfaces)
          (.cons (hasShape definition.fields) (.cons (hasShape definition.methods)
            (.cons (hasShape definition.exportSymbol) .nil)))))))))

instance : Shaped ClassEntry where
  hasShape
    | .declared name => hasShape_single rfl rfl (by decide) (hasShape name)
    | .defined definition => hasShape_single rfl rfl (by decide) (hasShape definition)

instance : Shaped StoredFunction where
  hasShape function := hasShape_record (.cons (hasShape function.name) .nil)

/-! ## Static data -/

mutual

theorem hasShape_dataType :
    (type : DataType) → HasShape (.named .dataType) (dataTypeToValue type)
  | .i32 | .i64 | .u16 | .ptr => hasShape_unit rfl rfl (by decide)
  | .array element _ =>
    .variant rfl rfl (by decide) rfl (by simpa using ⟨hasShape_dataType element, .word⟩)
  | .struct members =>
    hasShape_single rfl rfl (by decide) (.sequence (hasShape_dataTypes members))

theorem hasShape_dataTypes : (types : List DataType) →
    ∀ value ∈ dataTypesToValues types, HasShape (.named .dataType) value
  | [] => by simp [dataTypesToValues]
  | member :: rest => by
    rw [dataTypesToValues, List.forall_mem_cons]
    exact ⟨hasShape_dataType member, hasShape_dataTypes rest⟩

end

instance : Shaped DataType := ⟨hasShape_dataType⟩

mutual

theorem hasShape_constant :
    (constant : Constant) → HasShape (.named .constant) (constantToValue constant)
  | .i32 _ => hasShape_single rfl rfl (by decide) .int32
  | .i64 _ => hasShape_single rfl rfl (by decide) .int64
  | .null => hasShape_unit rfl rfl (by decide)
  | .globalAddress _ | .functionAddress _ => hasShape_single rfl rfl (by decide) .word
  | .utf16 _ => hasShape_single rfl rfl (by decide) .text
  | .array element items =>
    .variant rfl rfl (by decide) rfl
      (by simpa using ⟨hasShape_dataType element, .sequence (hasShape_constants items)⟩)
  | .struct members =>
    hasShape_single rfl rfl (by decide) (.sequence (hasShape_constants members))
  | .zero type => hasShape_single rfl rfl (by decide) (hasShape_dataType type)

theorem hasShape_constants : (constants : List Constant) →
    ∀ value ∈ constantsToValues constants, HasShape (.named .constant) value
  | [] => by simp [constantsToValues]
  | item :: rest => by
    rw [constantsToValues, List.forall_mem_cons]
    exact ⟨hasShape_constant item, hasShape_constants rest⟩

end

instance : Shaped Constant := ⟨hasShape_constant⟩

instance : Shaped Linkage where
  hasShape linkage := by cases linkage <;> exact hasShape_unit rfl rfl (by decide)

instance : Shaped Global where
  hasShape global := hasShape_record
    (.cons .text (.cons (hasShape global.type) (.cons (hasShape global.initial)
      (.cons .flag (.cons (hasShape global.linkage) .nil)))))

end Storable

end TypeRecords.Wire

/-! ## What fits into a machine -/

namespace TypeRecords

open Wire Wire.Storable

/-- Whether a machine with 64-bit words can hold a catalog. -/
structure Catalog.Representable (catalog : Catalog) : Prop where
  bounded : (toValue catalog).Bounded
  classesFit : catalog.classes.size ≤ Binary.mapLimit
  functionsFit : catalog.functions.size ≤ Binary.mapLimit
  valueBoxesFit : catalog.valueBoxes.size ≤ Binary.mapLimit

theorem Catalog.Representable.hasShape {catalog : Catalog} (fits : catalog.Representable) :
    HasShape (shape Catalog) (toValue catalog) := by
  have functionsFit : (catalog.functions.mapValues StoredFunction.mk).size ≤ Binary.mapLimit := by
    rw [OrderedMap.size, OrderedMap.mapValues, List.length_map]
    exact fits.functionsFit
  exact hasShape_record
    (.cons (hasShape_map fits.classesFit) (.cons (hasShape_map functionsFit)
      (.cons (hasShape_map fits.valueBoxesFit) .nil)))

/-- Whether a machine with 64-bit words can hold a segment. -/
structure Segment.Representable (segment : Segment) : Prop where
  bounded : (toValue segment).Bounded
  namesFit : segment.names.size ≤ Binary.mapLimit
  stringsFit : segment.strings.size ≤ Binary.mapLimit

theorem Segment.Representable.hasShape {segment : Segment} (fits : segment.Representable) :
    HasShape (shape Segment) (toValue segment) :=
  hasShape_record
    (.cons (Shaped.hasShape segment.globals) (.cons (hasShape_map fits.namesFit)
      (.cons (Shaped.hasShape segment.used) (.cons (hasShape_map fits.stringsFit) .nil))))

end TypeRecords
