import TypeRecords.Class.Catalog
import TypeRecords.Wire.Storable

/-!
Catalogs in files.

Owns the stored form of names, classes and catalogs. Fields stand in the order of the binary form,
under the names they have in JSON.
-/

namespace TypeRecords.Wire.Storable

instance : Storable QualifiedName where
  shape := .record "NamePath" [("path", shape (List String))]
  toValue name := .record [toValue name.parts]
  ofValue?
    | .record [parts] => (ofValue? parts).map QualifiedName.mk
    | _ => none
  ofValue?_toValue name := by simp [ofValue?_toValue]

/-! ## Types of fields -/

/-- The stored form of the type of a field. -/
def valueTypeToValue : ValueType → Value
  | .bool => .variant 0 []
  | .u8 => .variant 1 []
  | .i8 => .variant 2 []
  | .i16 => .variant 3 []
  | .u16 => .variant 4 []
  | .char => .variant 5 []
  | .i32 => .variant 6 []
  | .u32 => .variant 7 []
  | .i64 => .variant 8 []
  | .u64 => .variant 9 []
  | .f32 => .variant 10 []
  | .f64 => .variant 11 []
  | .usize => .variant 12 []
  | .isize => .variant 13 []
  | .pointer target => .variant 14 [valueTypeToValue target]
  | .object id => .variant 15 [.word id.number]
  | .any => .variant 16 []

/-- The type of a field of a stored form. -/
def valueTypeOfValue? : Value → Option ValueType
  | .variant 0 [] => some .bool
  | .variant 1 [] => some .u8
  | .variant 2 [] => some .i8
  | .variant 3 [] => some .i16
  | .variant 4 [] => some .u16
  | .variant 5 [] => some .char
  | .variant 6 [] => some .i32
  | .variant 7 [] => some .u32
  | .variant 8 [] => some .i64
  | .variant 9 [] => some .u64
  | .variant 10 [] => some .f32
  | .variant 11 [] => some .f64
  | .variant 12 [] => some .usize
  | .variant 13 [] => some .isize
  | .variant 14 [target] => (valueTypeOfValue? target).map .pointer
  | .variant 15 [.word number] => some (.object ⟨number⟩)
  | .variant 16 [] => some .any
  | _ => none

theorem valueTypeOfValue?_valueTypeToValue (type : ValueType) :
    valueTypeOfValue? (valueTypeToValue type) = some type := by
  induction type with
  | pointer target inductionHypothesis =>
    simp [valueTypeToValue, valueTypeOfValue?, inductionHypothesis]
  | _ => rfl

instance : Storable ValueType where
  shape := .named .valueType
  toValue := valueTypeToValue
  ofValue? := valueTypeOfValue?
  ofValue?_toValue := valueTypeOfValue?_valueTypeToValue

/-! ## Classes -/

instance : Storable ClassKind where
  shape := .choice "ClassKind" [("Class", []), ("Interface", [])]
  toValue
    | .proper => .variant 0 []
    | .interface => .variant 1 []
  ofValue?
    | .variant 0 [] => some .proper
    | .variant 1 [] => some .interface
    | _ => none
  ofValue?_toValue kind := by cases kind <;> rfl

instance : Storable Modality where
  shape := .choice "Modality" [("Final", []), ("Open", []), ("Abstract", [])]
  toValue
    | .final => .variant 0 []
    | .inheritable => .variant 1 []
    | .abstract => .variant 2 []
  ofValue?
    | .variant 0 [] => some .final
    | .variant 1 [] => some .inheritable
    | .variant 2 [] => some .abstract
    | _ => none
  ofValue?_toValue modality := by cases modality <;> rfl

instance : Storable ClassScope where
  shape := .choice "ClassScope"
    [("Package", []), ("Nested", [.word]), ("Local", []), ("Anonymous", [])]
  toValue
    | .topLevel => .variant 0 []
    | .nested outer => .variant 1 [.word outer.number]
    | .functionBody => .variant 2 []
    | .anonymous => .variant 3 []
  ofValue?
    | .variant 0 [] => some .topLevel
    | .variant 1 [.word outer] => some (.nested ⟨outer⟩)
    | .variant 2 [] => some .functionBody
    | .variant 3 [] => some .anonymous
    | _ => none
  ofValue?_toValue scope := by cases scope <;> rfl

instance : Storable Implementation where
  shape := .choice "ImplKind" [("Concrete", []), ("Abstract", []), ("External", [])]
  toValue
    | .concrete => .variant 0 []
    | .abstract => .variant 1 []
    | .external => .variant 2 []
  ofValue?
    | .variant 0 [] => some .concrete
    | .variant 1 [] => some .abstract
    | .variant 2 [] => some .external
    | _ => none
  ofValue?_toValue implementation := by cases implementation <;> rfl

instance : Storable FieldDefinition where
  shape := .record "FieldDef" [("name", .text), ("ty", shape ValueType)]
  toValue field := .record [.text field.name, toValue field.type]
  ofValue?
    | .record [.text name, type] => (ofValue? type).map (FieldDefinition.mk name)
    | _ => none
  ofValue?_toValue field := by simp [ofValue?_toValue]

instance : Storable MethodDefinition where
  shape := .record "MethodDef"
    [("name", .text), ("impl_kind", shape Implementation), ("func", shape (Option FunctionId)),
      ("overridable", .flag)]
  toValue method := .record
    [.text method.name, toValue method.implementation, toValue method.function,
      .flag method.overridable]
  ofValue?
    | .record [.text name, implementation, function, .flag overridable] => do
      return ⟨name, ← ofValue? implementation, ← ofValue? function, overridable⟩
    | _ => none
  ofValue?_toValue method := by simp [ofValue?_toValue]

instance : Storable ClassDefinition where
  shape := .record "ClassDef"
    [("name", shape QualifiedName), ("kind", shape ClassKind), ("modality", shape Modality),
      ("scope", shape ClassScope), ("super_class", shape (Option ClassId)),
      ("interfaces", shape (List ClassId)), ("fields", shape (List FieldDefinition)),
      ("methods", shape (List MethodDefinition)), ("export_as", shape (Option String))]
  toValue definition := .record
    [toValue definition.name, toValue definition.kind, toValue definition.modality,
      toValue definition.scope, toValue definition.superclass, toValue definition.interfaces,
      toValue definition.fields, toValue definition.methods, toValue definition.exportSymbol]
  ofValue?
    | .record [name, kind, modality, scope, superclass, interfaces, fields, methods, symbol] => do
      return ⟨← ofValue? name, ← ofValue? kind, ← ofValue? modality, ← ofValue? scope,
        ← ofValue? superclass, ← ofValue? interfaces, ← ofValue? fields, ← ofValue? methods,
        ← ofValue? symbol⟩
    | _ => none
  ofValue?_toValue definition := by simp [ofValue?_toValue]

instance : Storable ClassEntry where
  shape := .choice "ClassDecl"
    [("Forward", [shape QualifiedName]), ("Def", [shape ClassDefinition])]
  toValue
    | .declared name => .variant 0 [toValue name]
    | .defined definition => .variant 1 [toValue definition]
  ofValue?
    | .variant 0 [name] => (ofValue? name).map .declared
    | .variant 1 [definition] => (ofValue? definition).map .defined
    | _ => none
  ofValue?_toValue entry := by cases entry <;> simp [ofValue?_toValue]

/-! ## Functions and catalogs -/

/-- The stored form of a function, whose name is all there is to it. -/
structure StoredFunction where
  name : Option QualifiedName

instance : Storable StoredFunction where
  shape := .record "FunctionDecl" [("global_name", shape (Option QualifiedName))]
  toValue function := .record [toValue function.name]
  ofValue?
    | .record [name] => (ofValue? name).map StoredFunction.mk
    | _ => none
  ofValue?_toValue function := by simp [ofValue?_toValue]

instance : Storable Catalog where
  shape := .record "Metadata"
    [("classes", shape (OrderedMap ClassId ClassEntry)),
      ("functions", shape (OrderedMap FunctionId StoredFunction)),
      ("value_boxes", shape (OrderedMap ClassId ClassId))]
  toValue catalog := .record
    [toValue catalog.classes, toValue (catalog.functions.mapValues StoredFunction.mk),
      toValue catalog.valueBoxes]
  ofValue?
    | .record [classes, functions, valueBoxes] => do
      let functions : OrderedMap FunctionId StoredFunction ← ofValue? functions
      return ⟨← ofValue? classes, functions.mapValues StoredFunction.name,
        ← ofValue? valueBoxes⟩
    | _ => none
  ofValue?_toValue catalog := by
    simp [ofValue?_toValue, OrderedMap.mapValues_mapValues]

end TypeRecords.Wire.Storable
