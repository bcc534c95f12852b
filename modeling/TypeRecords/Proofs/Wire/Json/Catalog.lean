import TypeRecords.Proofs.Wire.Json.Depth
import TypeRecords.Proofs.Wire.Json.Limit

/-!
Catalogs in JSON.

Owns how deep the text of a catalog nests, which only the types of fields make a matter of the
catalog, and what comes of reading a catalog from its text: the catalog, or an error about the
depth.
-/

namespace TypeRecords

/-- How many objects the text of a type of a field has one inside the other. -/
def ValueType.nesting : ValueType → Nat
  | .pointer target => target.nesting + 1
  | .object _ => 1
  | _ => 0

/-- Whether no type of a field nests deeper than given. -/
def Catalog.NestsWithin (catalog : Catalog) (most : Nat) : Prop :=
  ∀ id definition, (id, ClassEntry.defined definition) ∈ catalog.classes.entries →
    ∀ field ∈ definition.fields, field.type.nesting ≤ most

namespace Wire.Storable

/-! ## How deep texts nest -/

/-- How many lists and objects the text of a value has one inside the other. -/
def nesting {α : Type} [Storable α] (value : α) : Nat := Json.nesting (shape α) (toValue value)

section Containers

variable {α κ : Type} [Storable α] [Storable κ] {most : Nat}

theorem nesting_list_le {items : List α} :
    nesting items ≤ most + 1 ↔ ∀ item ∈ items, nesting item ≤ most := by
  show Json.itemsNesting (shape α) (items.map toValue) + 1 ≤ most + 1 ↔ _
  rw [Nat.add_le_add_iff_right, Json.itemsNesting_le, List.forall_mem_map]
  rfl

theorem nesting_map_le [DecidableEq κ] {map : OrderedMap κ α} :
    nesting map ≤ most + 1 ↔ ∀ entry ∈ map.entries, nesting entry.2 ≤ most := by
  have stored : map.entries.map entryToValue = (map.entries.map fun entry =>
      (toValue entry.1, toValue entry.2)).map fun entry => .record [entry.1, entry.2] := by
    rw [List.map_map]
    rfl
  show Json.entriesNesting (shape α) (map.entries.map entryToValue) + 1 ≤ most + 1 ↔ _
  rw [Nat.add_le_add_iff_right, stored, Json.entriesNesting_le, List.forall_mem_map]
  rfl

theorem nesting_option_le {value : Option α} :
    nesting value ≤ most ↔ ∀ present ∈ value, nesting present ≤ most := by
  cases value with
  | none => simp [nesting, toValue, Json.nesting]
  | some present => simp [nesting, toValue, Json.nesting, Json.itemShape, shape, Shape.unfolded]

end Containers

theorem nesting_valueType (type : ValueType) : nesting type = type.nesting := by
  induction type with
  | pointer target inductionHypothesis =>
    show nesting target + 1 = target.nesting + 1
    rw [inductionHypothesis]
  | _ => rfl

theorem nesting_field (field : FieldDefinition) : nesting field = field.type.nesting + 1 := by
  show max 0 (max (nesting field.type) 0) + 1 = _
  rw [nesting_valueType, Nat.max_zero, Nat.zero_max]

theorem nesting_name_le (name : QualifiedName) : nesting name ≤ 2 := by
  have parts : nesting name.parts ≤ 1 := nesting_list_le.mpr fun part _ => Nat.le_refl 0
  show max (nesting name.parts) 0 + 1 ≤ 2
  omega

theorem nesting_method_le (method : MethodDefinition) : nesting method ≤ 1 := by
  have implementation : nesting method.implementation = 0 := by
    cases method.implementation <;> rfl
  have function : nesting method.function ≤ 0 :=
    nesting_option_le.mpr fun _ _ => Nat.le_refl 0
  show max 0 (max (nesting method.implementation) (max (nesting method.function) (max 0 0))) + 1 ≤ 1
  omega

/-- Of a class only the types of its fields nest without bound. -/
theorem nesting_definition_le {definition : ClassDefinition} {most : Nat} :
    nesting definition ≤ most + 3 ↔ ∀ field ∈ definition.fields, field.type.nesting ≤ most := by
  have fields : nesting definition.fields ≤ most + 2 ↔
      ∀ field ∈ definition.fields, field.type.nesting ≤ most := by
    rw [nesting_list_le]
    simp only [nesting_field, Nat.add_le_add_iff_right]
  have name := nesting_name_le definition.name
  have kind : nesting definition.kind = 0 := by
    cases definition.kind <;> rfl
  have modality : nesting definition.modality = 0 := by
    cases definition.modality <;> rfl
  have scope : nesting definition.scope ≤ 1 := by
    cases definition.scope with
    | nested outer => exact Nat.le_refl 1
    | _ => exact Nat.zero_le 1
  have superclass : nesting definition.superclass ≤ 0 :=
    nesting_option_le.mpr fun _ _ => Nat.le_refl 0
  have interfaces : nesting definition.interfaces ≤ 1 :=
    nesting_list_le.mpr fun _ _ => Nat.le_refl 0
  have methods : nesting definition.methods ≤ 2 :=
    nesting_list_le.mpr fun method _ => nesting_method_le method
  have symbol : nesting definition.exportSymbol ≤ 0 :=
    nesting_option_le.mpr fun _ _ => Nat.le_refl 0
  rw [← fields]
  show max (nesting definition.name) (max (nesting definition.kind)
    (max (nesting definition.modality) (max (nesting definition.scope)
      (max (nesting definition.superclass) (max (nesting definition.interfaces)
        (max (nesting definition.fields) (max (nesting definition.methods)
          (max (nesting definition.exportSymbol) 0)))))))) + 1 ≤ most + 3 ↔ _
  omega

theorem nesting_entry_le {entry : ClassEntry} {most : Nat} :
    nesting entry ≤ most + 4 ↔ ∀ definition, entry = .defined definition →
      ∀ field ∈ definition.fields, field.type.nesting ≤ most := by
  cases entry with
  | declared name =>
    have ofName := nesting_name_le name
    have small : nesting (ClassEntry.declared name) ≤ most + 4 := by
      show nesting name + 1 ≤ most + 4
      omega
    exact ⟨fun _ _ same => (nomatch same), fun _ => small⟩
  | defined definition =>
    show nesting definition + 1 ≤ most + 3 + 1 ↔ _
    rw [Nat.add_le_add_iff_right, nesting_definition_le]
    constructor
    · intro each other same
      cases same
      exact each
    · exact fun each => each definition rfl

theorem nesting_catalog_le {catalog : Catalog} {most : Nat} :
    nesting catalog ≤ most + 6 ↔ catalog.NestsWithin most := by
  have classes : nesting catalog.classes ≤ most + 5 ↔ catalog.NestsWithin most := by
    rw [nesting_map_le]
    simp only [nesting_entry_le]
    constructor
    · exact fun each id definition listed => each _ listed definition rfl
    · rintro each ⟨id, entry⟩ listed definition rfl
      exact each id definition listed
  have functions : nesting (catalog.functions.mapValues StoredFunction.mk) ≤ 4 := by
    refine nesting_map_le.mpr fun entry _ => ?_
    have name : nesting entry.2.name ≤ 2 :=
      nesting_option_le.mpr fun name _ => nesting_name_le name
    show max (nesting entry.2.name) 0 + 1 ≤ 3
    omega
  have valueBoxes : nesting catalog.valueBoxes ≤ 1 :=
    nesting_map_le.mpr fun _ _ => Nat.le_refl 0
  rw [← classes]
  show max (nesting catalog.classes) (max (nesting (catalog.functions.mapValues StoredFunction.mk))
    (max (nesting catalog.valueBoxes) 0)) + 1 ≤ most + 6 ↔ _
  omega

/-! ## Reading back -/

theorem ofJson_utf8_toJson {α : Type} [Storable α] (value : α) :
    ofJson α (Text.utf8 (toJson value)) =
      match Json.read (shape α) (Json.written (shape α) (toValue value)) with
      | .error error => .error (.json error (Text.utf8 (toJson value)))
      | .ok read =>
        match ofValue? read with
        | some result => .ok result
        | none => .error .meaningless := rfl

/-- Whether the JSON text of a value is refused because too many of its lists and objects stand one
inside the other. -/
def RefusedForDepth {α : Type} [Storable α] (value : α) : Prop :=
  ∃ error, ofJson α (Text.utf8 (toJson value)) =
    .error (.json error (Text.utf8 (toJson value))) ∧ error.cause = .tooDeep

section ReadBack

variable {α : Type} [Storable α] {value : α}

theorem RefusedForDepth.ne_ok (refused : RefusedForDepth value) :
    ofJson α (Text.utf8 (toJson value)) ≠ .ok value := by
  obtain ⟨error, failed, _⟩ := refused
  rw [failed]
  exact nofun

/-- A text that does not nest too deep is read back. -/
theorem restored_of_nesting (fits : HasShape (shape α) (toValue value))
    (readable : (shape α).readable = true) (bounded : (toValue value).Bounded)
    (shallow : nesting value < Json.depthLimit) :
    ofJson α (Text.utf8 (toJson value)) = .ok value := by
  rw [ofJson_utf8_toJson, Json.read_written fits readable bounded shallow]
  simp only [ofValue?_toValue]

/-- Any other text is refused, for this reason. -/
theorem refusedForDepth_of_nesting (fits : HasShape (shape α) (toValue value))
    (readable : (shape α).readable = true) (bounded : (toValue value).Bounded)
    (deep : ¬ nesting value < Json.depthLimit) : RefusedForDepth value := by
  rw [RefusedForDepth, ofJson_utf8_toJson]
  rcases Json.limits_read_written fits readable bounded with taken | ⟨error, failed, isDepth⟩
  · exact absurd (Json.nesting_lt_of_read taken) deep
  · rw [failed]
    exact ⟨error, rfl, isDepth⟩

end ReadBack

theorem nesting_lt_depthLimit_iff {catalog : Catalog} :
    nesting catalog < Json.depthLimit ↔ catalog.NestsWithin 121 := by
  rw [← nesting_catalog_le]
  show nesting catalog < 128 ↔ nesting catalog ≤ 127
  omega

/-- A catalog is read back from its JSON text, with the order of all its maps, exactly if no type of
a field nests deeper than 121 objects: six lists and objects stand around it, and fewer than 128 may
be open. Otherwise the text is refused for its depth. -/
theorem catalog_json_restored_iff {catalog : Catalog} (fits : catalog.Representable) :
    (ofJson Catalog (Text.utf8 (toJson catalog)) = .ok catalog ↔ catalog.NestsWithin 121) ∧
      (RefusedForDepth catalog ↔ ¬ catalog.NestsWithin 121) := by
  have whenShallow := restored_of_nesting fits.hasShape (by decide) fits.bounded
  have whenDeep := refusedForDepth_of_nesting fits.hasShape (by decide) fits.bounded
  rw [nesting_lt_depthLimit_iff] at whenShallow whenDeep
  refine ⟨⟨fun restored => ?_, whenShallow⟩, fun refused within => ?_, whenDeep⟩
  · by_contra deep
    exact (whenDeep deep).ne_ok restored
  · exact refused.ne_ok (whenShallow within)

/-- A class whose one field is of a pointer type of the given depth. -/
def pointerCatalog (depth : Nat) : Catalog where
  classes := .ofList [(⟨0⟩, .defined {
    name := ⟨["system", "Any"]⟩, kind := .proper, modality := .inheritable, scope := .topLevel,
    superclass := none, interfaces := [],
    fields := [⟨"field", Nat.repeat ValueType.pointer depth .bool⟩], methods := [],
    exportSymbol := none })]
  functions := .empty
  valueBoxes := .empty

theorem pointerCatalog_121_restored :
    (pointerCatalog 121).Representable ∧ (pointerCatalog 121).NestsWithin 121 ∧
      ofJson Catalog (Text.utf8 (toJson (pointerCatalog 121))) = .ok (pointerCatalog 121) := by
  have fits : (pointerCatalog 121).Representable :=
    ⟨by decide +kernel, by decide, by decide, by decide⟩
  have within : (pointerCatalog 121).NestsWithin 121 :=
    nesting_catalog_le.mp (show nesting (pointerCatalog 121) ≤ 127 by decide +kernel)
  exact ⟨fits, within, (catalog_json_restored_iff fits).1.mpr within⟩

/-- One pointer more, and the catalog is not read back from its own text, which is refused. -/
theorem pointerCatalog_122_not_restored :
    (pointerCatalog 122).Representable ∧ RefusedForDepth (pointerCatalog 122) ∧
      ofJson Catalog (Text.utf8 (toJson (pointerCatalog 122))) ≠ .ok (pointerCatalog 122) := by
  have fits : (pointerCatalog 122).Representable :=
    ⟨by decide +kernel, by decide, by decide, by decide⟩
  have tooDeep : ¬ nesting (pointerCatalog 122) < Json.depthLimit := by decide +kernel
  have refused := refusedForDepth_of_nesting fits.hasShape (by decide) fits.bounded tooDeep
  exact ⟨fits, refused, refused.ne_ok⟩

end Wire.Storable

end TypeRecords
