import TypeRecords.Proofs.Segment.Closed
import TypeRecords.Record.VirtualTable

/-!
Records as constants.

Owns the storage types and the references of the constants that make up a record and its tables,
and the reader that takes a record back from the value of its global. The reader goes by position
alone, as the runtime does, and shares nothing with the definitions that write the constants.
-/

namespace TypeRecords

/-! ## Reading a record -/

/-- The address in a pointer field, which may be null. -/
def Constant.address? : Constant → Option (Option GlobalId)
  | .globalAddress id => some (some id)
  | .null => some none
  | _ => none

namespace TypeRecord

/-- The extension record in what follows the other fields of a record. -/
def readExtension? : List Constant → Option (Option GlobalId)
  | [] => some none
  | [.globalAddress id] => some (some id)
  | _ => none

/-- The record with the fields of a constant, in the order of the binary layout. -/
def read? : Constant → Option TypeRecord
  | .struct (.i64 hash :: .i32 size :: supertype :: tracedArray :: .i32 tracedCount ::
      interfaceArray :: .i32 interfaceCount :: methodArray :: .i32 methodCount ::
      fieldArray :: .i32 fieldCount :: packageName :: relativeName :: rest) => do
    return {
      nameHash := ⟨hash.toUInt64⟩
      instanceSize := size
      supertype := ← supertype.address?
      tracedOffsets := ⟨← tracedArray.address?, tracedCount⟩
      interfaces := ⟨← interfaceArray.address?, interfaceCount⟩
      methods := ⟨← methodArray.address?, methodCount⟩
      fields := ⟨← fieldArray.address?, fieldCount⟩
      packageName := ← packageName.address?
      relativeName := ← relativeName.address?
      extension := ← readExtension? rest }
  | _ => none

/-- The record at the start of a value, and the slots of the virtual table behind it. -/
def readWithTable? : Constant → Option (TypeRecord × Option (List Constant))
  | .struct [.struct fields, .array .ptr slots] =>
    (read? (.struct fields)).map fun record => (record, some slots)
  | value => (read? value).map fun record => (record, none)

/-- The record at the start of a value, without a virtual table behind it. -/
def recordPart : Constant → Constant
  | .struct [.struct fields, .array .ptr _] => .struct fields
  | value => value

@[simp]
theorem address?_globalAddressOrNull (id : Option GlobalId) :
    (Constant.globalAddressOrNull id).address? = some id := by
  cases id <;> rfl

/-- The fields of a record one by one. -/
theorem constant_eq (record : TypeRecord) :
    record.constant = .struct (.i64 record.nameHash.signed :: .i32 record.instanceSize ::
      .globalAddressOrNull record.supertype ::
      .globalAddressOrNull record.tracedOffsets.array :: .i32 record.tracedOffsets.count ::
      .globalAddressOrNull record.interfaces.array :: .i32 record.interfaces.count ::
      .globalAddressOrNull record.methods.array :: .i32 record.methods.count ::
      .globalAddressOrNull record.fields.array :: .i32 record.fields.count ::
      .globalAddressOrNull record.packageName :: .globalAddressOrNull record.relativeName ::
      (record.extension.map Constant.globalAddress).toList) := rfl

theorem read?_constant (record : TypeRecord) : read? record.constant = some record := by
  rw [constant_eq]
  obtain ⟨hash, size, supertype, traced, interfaces, methods, fields, package, relative,
    extension⟩ := record
  cases extension <;>
    simp [read?, readExtension?, NameHash.signed, bind, Option.bind, pure]

theorem recordPart_recordInitial (record : TypeRecord) (slots : Option (List Constant)) :
    recordPart (Segment.recordInitial record (slots.map (Constant.array .ptr))) =
      record.constant := by
  cases slots <;> rfl

theorem readWithTable?_recordInitial (record : TypeRecord) (slots : Option (List Constant)) :
    readWithTable? (Segment.recordInitial record (slots.map (Constant.array .ptr))) =
      some (record, slots) := by
  cases slots with
  | none =>
    have whole : readWithTable? record.constant =
        (read? record.constant).map fun record => (record, none) := rfl
    show readWithTable? record.constant = _
    rw [whole, read?_constant]
    rfl
  | some slots =>
    have front : readWithTable? (.struct [record.constant, .array .ptr slots]) =
        (read? record.constant).map fun record => (record, some slots) := rfl
    show readWithTable? (.struct [record.constant, .array .ptr slots]) = _
    rw [front, read?_constant]
    rfl

/-! ## Types and references -/

/-- The globals a record refers to, in the order of its fields. -/
def references (record : TypeRecord) : List (Option GlobalId) :=
  [record.supertype, record.tracedOffsets.array, record.interfaces.array, record.methods.array,
    record.fields.array, record.packageName, record.relativeName, record.extension]

theorem constant_type (record : TypeRecord) :
    record.constant.type = dataType record.extension.isSome := by
  have pointer : ∀ id, (Constant.globalAddressOrNull id).type = .ptr := by
    intro id
    cases id <;> rfl
  rw [constant_eq]
  cases record.extension <;> simp [Constant.type, Constant.types, pointer, dataType]

theorem constant_wellTyped (record : TypeRecord) : record.constant.WellTyped := by
  have pointer : ∀ id, (Constant.globalAddressOrNull id).WellTyped := by
    intro id
    cases id <;> trivial
  rw [constant_eq]
  cases record.extension <;> simp [Constant.WellTyped, Constant.AllWellTyped, pointer]

theorem mem_constant_globals {record : TypeRecord} {id : GlobalId} :
    id ∈ record.constant.globals ↔ some id ∈ record.references := by
  have pointer : ∀ place, id ∈ (Constant.globalAddressOrNull place).globals ↔ some id = place := by
    intro place
    cases place <;> simp [Constant.globalAddressOrNull, Constant.globals]
  rw [constant_eq]
  cases extension : record.extension <;>
    simp [Constant.globals, Constant.globalsOfAll, pointer, references, extension]

end TypeRecord

/-! ## The items of tables -/

namespace Constant

/-- Whether a constant is well typed, of that type, and refers to no global. -/
structure IsPlain (type : DataType) (value : Constant) : Prop where
  typed : value.type = type
  wellTyped : value.WellTyped
  globals : value.globals = []

theorem isPlain_i32 (value : Int32) : IsPlain .i32 (.i32 value) := ⟨rfl, trivial, rfl⟩

theorem isPlain_functionAddressOrNull (function : Option FunctionId) :
    IsPlain .ptr (functionAddressOrNull function) := by
  cases function <;> exact ⟨rfl, trivial, rfl⟩

theorem isPlain_array {element : DataType} {items : List Constant}
    (each : ∀ item ∈ items, IsPlain element item) :
    IsPlain (.array element items.length) (.array element items) := by
  refine ⟨rfl, wellTyped_array.mpr fun item member => ?_, ?_⟩
  · exact ⟨(each item member).typed, (each item member).wellTyped⟩
  · refine List.eq_nil_iff_forall_not_mem.mpr fun id occurs => ?_
    obtain ⟨item, member, occursInItem⟩ := mem_globals_array.mp occurs
    rw [(each item member).globals] at occursInItem
    cases occursInItem

end Constant

theorem FieldRecord.isPlain_constant (record : FieldRecord) : record.constant.IsPlain dataType :=
  ⟨rfl, ⟨trivial, trivial, trivial⟩, rfl⟩

theorem MethodRecord.isPlain_constant (record : MethodRecord) :
    record.constant.IsPlain dataType := by
  have pointer := Constant.isPlain_functionAddressOrNull record.entryPoint
  refine ⟨?_, ⟨trivial, pointer.wellTyped, trivial⟩, ?_⟩
  · simp [constant, Constant.type, Constant.types, pointer.typed, dataType]
  · simp [constant, Constant.globals, Constant.globalsOfAll, pointer.globals]

theorem VirtualSlot.isPlain_tableConstant (slots : List VirtualSlot) :
    ∃ type, (tableConstant slots).IsPlain type := by
  refine ⟨_, Constant.isPlain_array fun item member => ?_⟩
  obtain ⟨slot, _, rfl⟩ := List.mem_map.mp member
  exact Constant.isPlain_functionAddressOrNull slot.entryPoint

/-! ## What a segment admits -/

namespace Segment

variable {segment : Segment}

theorem admits_of_isPlain {type : DataType} {value : Constant} (plain : value.IsPlain type) :
    segment.Admits value := by
  refine ⟨plain.wellTyped, fun target occurs => ?_⟩
  rw [plain.globals] at occurs
  cases occurs

/-- Arrays of plain items can be placed anywhere. -/
theorem admits_array_map {α : Type} {element : DataType} {write : α → Constant}
    (each : ∀ item, (write item).IsPlain element) (items : List α) :
    segment.Admits (.array element (items.map write)) := by
  refine admits_of_isPlain (Constant.isPlain_array fun item member => ?_)
  obtain ⟨source, _, rfl⟩ := List.mem_map.mp member
  exact each source

theorem admits_addresses {ids : List GlobalId} (each : ∀ id ∈ ids, segment.IsInitialized id) :
    segment.Admits (.array .ptr (ids.map Constant.globalAddress)) := by
  refine ⟨Constant.wellTyped_array.mpr fun item member => ?_, fun target occurs => ?_⟩
  · obtain ⟨id, _, rfl⟩ := List.mem_map.mp member
    exact ⟨rfl, trivial⟩
  · obtain ⟨item, member, occursInItem⟩ := Constant.mem_globals_array.mp occurs
    obtain ⟨id, listed, rfl⟩ := List.mem_map.mp member
    rw [List.mem_singleton.mp occursInItem]
    exact each id listed

/-- A record can be placed once everything it refers to is defined. -/
theorem admits_recordInitial {record : TypeRecord} {virtualTable : Option Constant}
    (references : ∀ id, some id ∈ record.references → segment.IsInitialized id)
    (plain : ∀ table, virtualTable = some table → ∃ type, table.IsPlain type) :
    segment.Admits (recordInitial record virtualTable) := by
  have front : segment.Admits record.constant :=
    ⟨record.constant_wellTyped, fun id occurs =>
      references id (TypeRecord.mem_constant_globals.mp occurs)⟩
  cases virtualTable with
  | none => exact front
  | some table =>
    obtain ⟨type, tablePlain⟩ := plain table rfl
    have behind : segment.Admits table := admits_of_isPlain tablePlain
    refine ⟨⟨front.wellTyped, behind.wellTyped, trivial⟩, fun target occurs => ?_⟩
    obtain ⟨member, listed, occursInMember⟩ := Constant.mem_globals_struct.mp occurs
    rcases List.mem_pair.mp listed with rfl | rfl
    · exact front.references target occursInMember
    · exact behind.references target occursInMember

end Segment

end TypeRecords
