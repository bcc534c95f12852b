import TypeRecords.Segment.Basic
import TypeRecords.Wire.Storable

/-!
Data segments in files.

Owns the stored form of storage types, constants, globals and segments.
-/

namespace TypeRecords.Wire.Storable

/-! ## Storage types -/

mutual

/-- The stored form of a storage type. -/
def dataTypeToValue : DataType → Value
  | .i32 => .variant 0 []
  | .i64 => .variant 1 []
  | .u16 => .variant 2 []
  | .ptr => .variant 3 []
  | .array element length => .variant 4 [dataTypeToValue element, .word length]
  | .struct members => .variant 5 [.sequence (dataTypesToValues members)]

def dataTypesToValues : List DataType → List Value
  | [] => []
  | member :: rest => dataTypeToValue member :: dataTypesToValues rest

end

mutual

/-- The storage type of a stored form. -/
def dataTypeOfValue? : Value → Option DataType
  | .variant 0 [] => some .i32
  | .variant 1 [] => some .i64
  | .variant 2 [] => some .u16
  | .variant 3 [] => some .ptr
  | .variant 4 [element, .word length] =>
    (dataTypeOfValue? element).map fun element => .array element length
  | .variant 5 [.sequence members] => (dataTypesOfValues? members).map .struct
  | _ => none

def dataTypesOfValues? : List Value → Option (List DataType)
  | [] => some []
  | member :: rest => do return (← dataTypeOfValue? member) :: (← dataTypesOfValues? rest)

end

mutual

theorem dataTypeOfValue?_dataTypeToValue :
    (type : DataType) → dataTypeOfValue? (dataTypeToValue type) = some type
  | .i32 | .i64 | .u16 | .ptr => rfl
  | .array element _ => by
    simp [dataTypeToValue, dataTypeOfValue?, dataTypeOfValue?_dataTypeToValue element]
  | .struct members => by
    simp [dataTypeToValue, dataTypeOfValue?, dataTypesOfValues?_dataTypesToValues members]

theorem dataTypesOfValues?_dataTypesToValues :
    (types : List DataType) → dataTypesOfValues? (dataTypesToValues types) = some types
  | [] => rfl
  | member :: rest => by
    simp [dataTypesToValues, dataTypesOfValues?, dataTypeOfValue?_dataTypeToValue member,
      dataTypesOfValues?_dataTypesToValues rest]

end

instance : Storable DataType where
  shape := .named .dataType
  toValue := dataTypeToValue
  ofValue? := dataTypeOfValue?
  ofValue?_toValue := dataTypeOfValue?_dataTypeToValue

/-! ## Constants -/

mutual

/-- The stored form of a constant. -/
def constantToValue : Constant → Value
  | .i32 number => .variant 0 [.int32 number]
  | .i64 number => .variant 1 [.int64 number]
  | .null => .variant 2 []
  | .globalAddress id => .variant 3 [.word id.number]
  | .functionAddress id => .variant 4 [.word id.number]
  | .utf16 text => .variant 5 [.text text]
  | .array element items =>
    .variant 6 [dataTypeToValue element, .sequence (constantsToValues items)]
  | .struct members => .variant 7 [.sequence (constantsToValues members)]
  | .zero type => .variant 8 [dataTypeToValue type]

def constantsToValues : List Constant → List Value
  | [] => []
  | item :: rest => constantToValue item :: constantsToValues rest

end

mutual

/-- The constant of a stored form. -/
def constantOfValue? : Value → Option Constant
  | .variant 0 [.int32 number] => some (.i32 number)
  | .variant 1 [.int64 number] => some (.i64 number)
  | .variant 2 [] => some .null
  | .variant 3 [.word number] => some (.globalAddress ⟨number⟩)
  | .variant 4 [.word number] => some (.functionAddress ⟨number⟩)
  | .variant 5 [.text text] => some (.utf16 text)
  | .variant 6 [element, .sequence items] => do
    return .array (← dataTypeOfValue? element) (← constantsOfValues? items)
  | .variant 7 [.sequence members] => (constantsOfValues? members).map .struct
  | .variant 8 [type] => (dataTypeOfValue? type).map .zero
  | _ => none

def constantsOfValues? : List Value → Option (List Constant)
  | [] => some []
  | item :: rest => do return (← constantOfValue? item) :: (← constantsOfValues? rest)

end

mutual

theorem constantOfValue?_constantToValue :
    (constant : Constant) → constantOfValue? (constantToValue constant) = some constant
  | .i32 _ | .i64 _ | .null | .globalAddress _ | .functionAddress _ | .utf16 _ => rfl
  | .array element items => by
    simp [constantToValue, constantOfValue?, dataTypeOfValue?_dataTypeToValue element,
      constantsOfValues?_constantsToValues items]
  | .struct members => by
    simp [constantToValue, constantOfValue?, constantsOfValues?_constantsToValues members]
  | .zero type => by
    simp [constantToValue, constantOfValue?, dataTypeOfValue?_dataTypeToValue type]

theorem constantsOfValues?_constantsToValues :
    (constants : List Constant) →
      constantsOfValues? (constantsToValues constants) = some constants
  | [] => rfl
  | item :: rest => by
    simp [constantsToValues, constantsOfValues?, constantOfValue?_constantToValue item,
      constantsOfValues?_constantsToValues rest]

end

instance : Storable Constant where
  shape := .named .constant
  toValue := constantToValue
  ofValue? := constantOfValue?
  ofValue?_toValue := constantOfValue?_constantToValue

/-! ## Globals and segments -/

instance : Storable Linkage where
  shape := .choice "Linkage" [("Internal", []), ("Exported", [])]
  toValue
    | .internal => .variant 0 []
    | .exported => .variant 1 []
  ofValue?
    | .variant 0 [] => some .internal
    | .variant 1 [] => some .exported
    | _ => none
  ofValue?_toValue linkage := by cases linkage <;> rfl

instance : Storable Global where
  shape := .record "Global"
    [("name", .text), ("ty", shape DataType), ("init", shape (Option Constant)),
      ("constant", .flag), ("linkage", shape Linkage)]
  toValue global := .record
    [.text global.name, toValue global.type, toValue global.initial, .flag global.constant,
      toValue global.linkage]
  ofValue?
    | .record [.text name, type, initial, .flag constant, linkage] => do
      return ⟨name, ← ofValue? type, ← ofValue? initial, constant, ← ofValue? linkage⟩
    | _ => none
  ofValue?_toValue global := by simp [ofValue?_toValue]

instance : Storable Segment where
  shape := .record "DataSegment"
    [("globals", shape (List Global)), ("names", shape (OrderedMap String GlobalId)),
      ("used", shape (List GlobalId)), ("strings", shape (OrderedMap String GlobalId))]
  toValue segment := .record
    [toValue segment.globals, toValue segment.names, toValue segment.used,
      toValue segment.strings]
  ofValue?
    | .record [globals, names, used, strings] => do
      return ⟨← ofValue? globals, ← ofValue? names, ← ofValue? used, ← ofValue? strings⟩
    | _ => none
  ofValue?_toValue segment := by simp [ofValue?_toValue]

end TypeRecords.Wire.Storable
