import TypeRecords.Proofs.Record.Answer

/-!
Inherited fields.

Owns where the fields of an instance stand. The layout of a class is made anew from the fields of
its whole ancestry, those of its supertype first. So these stand where the layout of the supertype
has them, and the offsets that the classes of a hierarchy give to their own fields together lay out
one instance.
-/

namespace TypeRecords

/-! ## Ranges of bytes -/

/-- A range of bytes of an instance, with the alignment it needs. -/
structure ByteRange where
  start : Int
  size : Nat
  alignment : Nat

namespace ByteRange

def finish (range : ByteRange) : Int := range.start + range.size

/-- Whether ranges stand one behind the other in so many bytes, each where its alignment allows. -/
structure InOrder (ranges : List ByteRange) (size : Nat) : Prop where
  increasing : ranges.Pairwise fun earlier later => earlier.start < later.start
  disjoint : ranges.Pairwise fun earlier later => earlier.finish ≤ later.start
  aligned : ∀ range ∈ ranges, (range.alignment : Int) ∣ range.start
  inside : ∀ range ∈ ranges, 0 ≤ range.start ∧ range.finish ≤ size

/-- The range of an element that stands at an offset. -/
def ofPlace (place : Nat × Element) : ByteRange := ⟨place.1, place.2.size, place.2.alignment⟩

open StructLayout in
theorem inOrder_of_offsetsFrom {elements : List Element} (aligned : Aligned elements)
    (positive : ∀ element ∈ elements, 0 < element.size) :
    InOrder (((offsetsFrom 0 elements).zip elements).map ofPlace) (storeSize elements) := by
  have disjoint := pairwise_zip aligned 0
  refine ⟨?_, ?_, ?_, ?_⟩
  · rw [List.pairwise_map]
    refine disjoint.imp_of_mem fun {earlier later} member _ apart => ?_
    have occupied := positive earlier.2 (List.of_mem_zip member).2
    exact Int.ofNat_lt.mpr (by omega)
  · rw [List.pairwise_map]
    exact disjoint.imp fun apart => Int.ofNat_le.mpr apart
  · intro range member
    obtain ⟨place, listed, rfl⟩ := List.mem_map.mp member
    exact Int.natCast_dvd_natCast.mpr (bounds_of_mem_zip aligned listed).1
  · intro range member
    obtain ⟨place, listed, rfl⟩ := List.mem_map.mp member
    have before := (bounds_of_mem_zip aligned listed).2.2
    exact ⟨Int.natCast_nonneg _, Int.ofNat_le.mpr (before.trans (endFrom_le_storeSize elements))⟩

end ByteRange

/-! ## The body of an instance -/

namespace Target

variable {target : Target} {fields inherited own : List FieldDefinition}

/-- The range of the object header. -/
def headerRange (target : Target) : ByteRange := ⟨0, target.headerSize, target.pointerSize⟩

/-- The range of a field at an offset. -/
def fieldRange (target : Target) (placed : FieldDefinition × Int32) : ByteRange :=
  ⟨placed.2.toInt, placed.1.type.scalar.size target, placed.1.type.scalar.size target⟩

/-- The bytes that the header and the fields take together, filled up to the largest alignment. -/
def bodySize (target : Target) (fields : List FieldDefinition) : Nat :=
  StructLayout.storeSize (target.bodyElements fields)

/-- The offsets of fields behind others. -/
def offsetsBehind (target : Target) (inherited own : List FieldDefinition) : List Nat :=
  StructLayout.offsetsFrom (StructLayout.endFrom 0 (target.bodyElements inherited))
    (own.map fun field => field.type.scalar.element target)

/-- The offsets of all fields of an instance. -/
def fieldOffsets (target : Target) (fields : List FieldDefinition) : List Nat :=
  target.offsetsBehind [] fields

theorem pointerSize_pos (target : Target) : 0 < target.pointerSize := by
  rcases target.pointerSize_eq with size | size <;> omega

theorem bodyElements_append (target : Target) (inherited own : List FieldDefinition) :
    target.bodyElements (inherited ++ own) = target.bodyElements inherited ++
      own.map fun field => field.type.scalar.element target := by
  rw [bodyElements, List.map_append]
  rfl

/-- The header stands in front. -/
theorem offsetsFrom_bodyElements (target : Target) (fields : List FieldDefinition) :
    StructLayout.offsetsFrom 0 (target.bodyElements fields) = 0 :: target.fieldOffsets fields := by
  have atFront : roundUp 0 target.pointerSize = 0 := roundUp_zero target.pointerSize_pos
  simp [bodyElements, StructLayout.offsetsFrom, fieldOffsets, offsetsBehind, StructLayout.endFrom,
    atFront]

/-- Inherited fields do not move. -/
theorem fieldOffsets_append (target : Target) (inherited own : List FieldDefinition) :
    target.fieldOffsets (inherited ++ own) =
      target.fieldOffsets inherited ++ target.offsetsBehind inherited own := by
  have split : 0 :: target.fieldOffsets (inherited ++ own) =
      0 :: (target.fieldOffsets inherited ++ target.offsetsBehind inherited own) := by
    rw [← offsetsFrom_bodyElements, bodyElements_append, StructLayout.offsetsFrom_append,
      offsetsFrom_bodyElements]
    rfl
  exact List.tail_eq_of_cons_eq split

theorem length_offsetsBehind (target : Target) (inherited own : List FieldDefinition) :
    (target.offsetsBehind inherited own).length = own.length := by
  rw [offsetsBehind, StructLayout.length_offsetsFrom, List.length_map]

/-- Whether no sum leaves the word while an instance is laid out. -/
def FitsWord (target : Target) (fields : List FieldDefinition) : Prop :=
  StructLayout.endFrom 0 (target.bodyElements fields) + 8 ≤ 2 ^ 64

theorem FitsWord.of_append (fits : target.FitsWord (inherited ++ own)) :
    target.FitsWord inherited := by
  have aligned := aligned_bodyElements target (inherited ++ own)
  rw [FitsWord, bodyElements_append, StructLayout.endFrom_append] at fits
  rw [bodyElements_append] at aligned
  have passed := StructLayout.le_endFrom (fun element member =>
    aligned element (List.mem_append_right _ member))
    (StructLayout.endFrom 0 (target.bodyElements inherited))
  unfold FitsWord
  omega

theorem fitsWord_of_bodySize_lt (small : target.bodySize fields < 2 ^ 31) :
    target.FitsWord fields := by
  have inside := StructLayout.endFrom_le_storeSize (target.bodyElements fields)
  unfold bodySize at small
  unfold FitsWord
  omega

theorem alignment_le_of_mem_bodyElements {element : Element}
    (member : element ∈ target.bodyElements fields) : element.alignment ≤ 8 := by
  rcases List.mem_cons.mp member with rfl | isField
  · rcases target.pointerSize_eq with size | size <;> simp [size]
  · obtain ⟨field, _, rfl⟩ := List.mem_map.mp isField
    show field.type.scalar.size target ≤ 8
    rcases field.type.scalar.size_eq target with size | size | size | size <;> omega

theorem size_pos_of_mem_bodyElements {element : Element}
    (member : element ∈ target.bodyElements fields) : 0 < element.size := by
  rcases List.mem_cons.mp member with rfl | isField
  · exact target.pointerSize_pos
  · obtain ⟨field, _, rfl⟩ := List.mem_map.mp isField
    show 0 < field.type.scalar.size target
    rcases field.type.scalar.size_eq target with size | size | size | size <;> omega

/-- The layout of an instance that fits into the word. -/
theorem build_bodyElements (fits : target.FitsWord fields) :
    ∃ body, StructLayout.build (target.bodyElements fields) = .ok body ∧
      body.offsets = 0 :: target.fieldOffsets fields ∧ body.size = target.bodySize fields := by
  have aligned := aligned_bodyElements target fields
  have fitsFrom : StructLayout.FitsWord 0 1 (target.bodyElements fields) :=
    StructLayout.fitsWord_of_endFrom_le aligned (by decide)
      (fun _ member => alignment_le_of_mem_bodyElements member) fits
  exact ⟨_, StructLayout.build_eq aligned fitsFrom, offsetsFrom_bodyElements target fields, rfl⟩

theorem lt_of_mem_fieldOffsets (small : target.bodySize fields < 2 ^ 31) :
    ∀ offset ∈ target.fieldOffsets fields, offset < 2 ^ 31 := by
  intro offset member
  have listed : offset ∈ StructLayout.offsetsFrom 0 (target.bodyElements fields) := by
    rw [offsetsFrom_bodyElements]
    exact List.mem_cons_of_mem 0 member
  rw [← List.map_fst_zip (StructLayout.length_offsetsFrom 0 _).le] at listed
  obtain ⟨place, isPlace, rfl⟩ := List.mem_map.mp listed
  have before := (StructLayout.bounds_of_mem_zip (aligned_bodyElements target fields) isPlace).2.2
  have inside := StructLayout.endFrom_le_storeSize (target.bodyElements fields)
  unfold bodySize at small
  omega

/-- The ranges of placed fields are those of their elements, where offsets fit into 32 bits. -/
theorem map_fieldRange_zip {offsets : List Nat} (small : ∀ offset ∈ offsets, offset < 2 ^ 31) :
    (fields.zip (offsets.map Int32.ofNat)).map target.fieldRange =
      (offsets.zip (fields.map fun field => field.type.scalar.element target)).map
        ByteRange.ofPlace := by
  induction fields generalizing offsets with
  | nil => simp
  | cons field rest inductionHypothesis =>
    cases offsets with
    | nil => rfl
    | cons offset others =>
      rw [List.forall_mem_cons] at small
      simp only [List.map_cons, List.zip_cons_cons, List.cons.injEq]
      refine ⟨?_, inductionHypothesis small.2⟩
      rw [fieldRange, Int32.toInt_ofNat_of_lt small.1]
      rfl

theorem inOrder_fieldRanges (small : target.bodySize fields < 2 ^ 31) :
    ByteRange.InOrder (target.headerRange ::
      (fields.zip ((target.fieldOffsets fields).map Int32.ofNat)).map target.fieldRange)
      (target.bodySize fields) := by
  rw [map_fieldRange_zip (lt_of_mem_fieldOffsets small)]
  have inOrder := ByteRange.inOrder_of_offsetsFrom (aligned_bodyElements target fields)
    fun _ member => size_pos_of_mem_bodyElements member
  rw [offsetsFrom_bodyElements] at inOrder
  exact inOrder

end Target

namespace Catalog

open Outcome

variable {catalog : Catalog} {sorted : List ClassId} {id : ClassId} {chain : List ClassId}
  {target : Target} {definition : ClassDefinition} {inherited : List FieldDefinition}

/-! ## Fields along a hierarchy -/

/-- The fields a class declares. -/
def ownFields (catalog : Catalog) (id : ClassId) : List FieldDefinition :=
  ((catalog.definition? id).map ClassDefinition.fields).getD []

/-- The fields of all ancestors, from the root down. -/
def fieldsAlong (catalog : Catalog) (chain : List ClassId) : List FieldDefinition :=
  chain.reverse.flatMap catalog.ownFields

theorem ownFields_eq (defined : catalog.definition? id = some definition) :
    catalog.ownFields id = definition.fields := by
  rw [ownFields, defined]
  rfl

theorem fieldsAlong_cons (id : ClassId) (chain : List ClassId) :
    catalog.fieldsAlong (id :: chain) = catalog.fieldsAlong chain ++ catalog.ownFields id := by
  rw [fieldsAlong, List.reverse_cons, List.flatMap_append]
  simp [fieldsAlong]

/-- The fields a class declares come last. -/
theorem Ancestry.exists_inherited (ancestry : catalog.Ancestry id chain)
    (defined : catalog.definition? id = some definition) :
    ∃ inherited, catalog.fieldsAlong chain = inherited ++ definition.fields := by
  cases ancestry with
  | root _ => exact ⟨_, by rw [fieldsAlong_cons, ownFields_eq defined]⟩
  | under _ _ _ => exact ⟨_, by rw [fieldsAlong_cons, ownFields_eq defined]⟩

theorem instanceFields_eq_fieldsAlong (graph : catalog.SoundGraph)
    (ancestry : catalog.Ancestry id chain) :
    catalog.instanceFields id = .ok (catalog.fieldsAlong chain) := by
  have each : ∀ ancestor ∈ chain.reverse, (do
      let definition ← catalog.definition ancestor
      return definition.fields) = .ok (catalog.ownFields ancestor) := by
    intro ancestor member
    obtain ⟨definition, defined⟩ := ancestry.isDefined_of_mem ancestor (List.mem_reverse.mp member)
    rw [definition_eq_ok.mpr defined, ownFields_eq defined]
    rfl
  rw [instanceFields, hierarchy_eq graph ancestry, ok_bind, mapM_eq_ok_of_each each, ok_bind,
    fieldsAlong, List.flatMap_def]
  rfl

/-! ## Layouts of classes -/

/-- The fields a class declares with the offsets its layout gives them. -/
def placedOwnFields (catalog : Catalog) (target : Target) (id : ClassId) :
    Except Failure (List (FieldDefinition × Int32)) := do
  let definition ← catalog.definition id
  let layout ← catalog.instanceLayout target id
  return definition.fields.zip layout.fieldOffsets

/-- The fields of an instance, from the root down, each with the offset that the layout of its own
class gives it. -/
def placedFields (catalog : Catalog) (target : Target) (id : ClassId) :
    Except Failure (List (FieldDefinition × Int32)) := do
  let hierarchy ← catalog.hierarchy id
  let placed ← hierarchy.mapM (catalog.placedOwnFields target)
  return placed.flatten

/-- The layout of a class behind the fields it inherits, counted without words. -/
def layoutBehind (target : Target) (definition : ClassDefinition)
    (inherited : List FieldDefinition) : InstanceLayout :=
  let fields := inherited ++ definition.fields
  { size := (variableLengthSize? definition.name target).getD (Int32.ofNat (target.bodySize fields))
    fieldOffsets := (target.offsetsBehind inherited definition.fields).map Int32.ofNat
    tracedOffsets := ((fields.zip ((target.fieldOffsets fields).map Int32.ofNat)).filter
      fun placed => placed.1.type.isManagedReference).map Prod.snd }

/-- Offsets can be chosen by their fields before or after they are put together. -/
theorem filterMap_zip_eq (offsets : List Int32) (fields : List FieldDefinition) :
    ((offsets.zip fields).filterMap fun (offset, field) =>
      if field.type.isManagedReference then some offset else none) =
        ((fields.zip offsets).filter fun placed =>
          placed.1.type.isManagedReference).map Prod.snd := by
  induction fields generalizing offsets with
  | nil => simp
  | cons field rest inductionHypothesis =>
    cases offsets with
    | nil => rfl
    | cons offset others =>
      cases isManaged : field.type.isManagedReference <;>
        simp [List.zip_cons_cons, isManaged, inductionHypothesis]

theorem instanceLayout_eq_layoutBehind (defined : catalog.definition? id = some definition)
    (answered : catalog.instanceFields id = .ok (inherited ++ definition.fields))
    (fits : target.FitsWord (inherited ++ definition.fields)) :
    catalog.instanceLayout target id =
      checkInterfaceFields definition >>= fun _ =>
        .ok (layoutBehind target definition inherited) := by
  obtain ⟨body, built, placed, size⟩ := Target.build_bodyElements fits
  have offsets : body.offsets.drop 1 = target.fieldOffsets (inherited ++ definition.fields) := by
    rw [placed]
    rfl
  -- The own fields are the last ones, as many as the class declares.
  have own : ((body.offsets.drop 1).map Int32.ofNat).drop
      (((body.offsets.drop 1).map Int32.ofNat).length - definition.fields.length) =
        (target.offsetsBehind inherited definition.fields).map Int32.ofNat := by
    rw [offsets, Target.fieldOffsets_append, List.map_append, List.length_append, List.length_map,
      List.length_map, Target.length_offsetsBehind, Nat.add_sub_cancel,
      List.drop_left' (List.length_map _)]
  have sameLayout : layoutBehind target definition inherited = {
      size := (variableLengthSize? definition.name target).getD (Int32.ofNat body.size)
      fieldOffsets := ((body.offsets.drop 1).map Int32.ofNat).drop
        (((body.offsets.drop 1).map Int32.ofNat).length - definition.fields.length)
      tracedOffsets := (((body.offsets.drop 1).map Int32.ofNat).zip
        (inherited ++ definition.fields)).filterMap fun (offset, field) =>
          if field.type.isManagedReference then some offset else none } := by
    rw [own, offsets, size, filterMap_zip_eq]
    rfl
  unfold instanceLayout
  rw [definition_eq_ok.mpr defined, answered, sameLayout]
  show (checkInterfaceFields definition >>= fun _ =>
    (liftM (StructLayout.build (target.bodyElements (inherited ++ definition.fields))) :
      Except Failure StructLayout) >>= _) = _
  rw [built]
  rfl

theorem checkInterfaceFields_of_proper (proper : definition.isInterface = false) :
    checkInterfaceFields definition = .ok () := by
  rw [checkInterfaceFields, proper]

theorem placedOwnFields_eq (defined : catalog.definition? id = some definition)
    (checked : checkInterfaceFields definition = .ok ())
    (answered : catalog.instanceFields id = .ok (inherited ++ definition.fields))
    (fits : target.FitsWord (inherited ++ definition.fields)) :
    catalog.placedOwnFields target id = .ok (definition.fields.zip
      ((target.offsetsBehind inherited definition.fields).map Int32.ofNat)) := by
  rw [placedOwnFields, definition_eq_ok.mpr defined,
    instanceLayout_eq_layoutBehind defined answered fits, checked]
  rfl

/-- The layouts of the classes of a hierarchy place the fields of one instance. The induction is
along the ancestry: the supertype is laid out without the fields of the class below it, which come
last. -/
theorem exists_mapM_placedOwnFields (graph : catalog.SoundGraph)
    (ancestry : catalog.Ancestry id chain)
    (checked : ∀ definition, catalog.definition? id = some definition →
      checkInterfaceFields definition = .ok ())
    (fits : target.FitsWord (catalog.fieldsAlong chain)) :
    ∃ parts, chain.reverse.mapM (catalog.placedOwnFields target) = .ok parts ∧
      parts.flatten = (catalog.fieldsAlong chain).zip
        ((target.fieldOffsets (catalog.fieldsAlong chain)).map Int32.ofNat) := by
  have answered := instanceFields_eq_fieldsAlong graph ancestry
  induction ancestry with
  | @root definition defined =>
    have alone : catalog.fieldsAlong [ClassId.root] = [] ++ definition.fields := by
      rw [fieldsAlong_cons, ownFields_eq defined]
      rfl
    rw [alone] at answered fits ⊢
    have answers := placedOwnFields_eq defined (checked _ defined) answered fits
    refine ⟨[_], mapM_eq_ok.mpr (.cons answers .nil), ?_⟩
    rw [List.flatten_cons, List.flatten_nil, List.append_nil]
    rfl
  | @under id supertype definition chain defined step above inductionHypothesis =>
    rw [fieldsAlong_cons, ownFields_eq defined] at answered fits ⊢
    have superIsProper := graph.isProper_of_supertype defined step
    obtain ⟨parts, inheritedParts, together⟩ := inductionHypothesis
      (fun other found => checkInterfaceFields_of_proper (superIsProper other found))
      fits.of_append (instanceFields_eq_fieldsAlong graph above)
    have ownPart := placedOwnFields_eq defined (checked _ defined) answered fits
    refine ⟨parts ++ [definition.fields.zip
      ((target.offsetsBehind (catalog.fieldsAlong chain) definition.fields).map Int32.ofNat)],
      mapM_eq_ok.mpr ?_, ?_⟩
    · rw [List.reverse_cons]
      exact List.rel_append (mapM_eq_ok.mp inheritedParts) (.cons ownPart .nil)
    · rw [List.flatten_append, together, Target.fieldOffsets_append, List.map_append,
        List.zip_append (by simp [Target.fieldOffsets, Target.length_offsetsBehind])]
      simp

theorem placedFields_eq (graph : catalog.SoundGraph) (ancestry : catalog.Ancestry id chain)
    (checked : ∀ definition, catalog.definition? id = some definition →
      checkInterfaceFields definition = .ok ())
    (fits : target.FitsWord (catalog.fieldsAlong chain)) :
    catalog.placedFields target id = .ok ((catalog.fieldsAlong chain).zip
      ((target.fieldOffsets (catalog.fieldsAlong chain)).map Int32.ofNat)) := by
  obtain ⟨parts, placed, together⟩ := exists_mapM_placedOwnFields graph ancestry checked fits
  rw [placedFields, hierarchy_eq graph ancestry, ← together]
  show (chain.reverse.mapM (catalog.placedOwnFields target) >>= _) = _
  rw [placed]
  rfl

/-! ## Sizes of instances -/

/-- Whether the instances of a class have variable length. -/
def HasVariableLength (definition : ClassDefinition) : Prop :=
  definition.name.display ∈ variableLengthTypes.map Prod.fst

theorem variableLengthSize?_eq_none (fixed : ¬ HasVariableLength definition) :
    variableLengthSize? definition.name target = none := by
  rw [variableLengthSize?, Option.map_eq_none_iff, List.find?_eq_none]
  intro entry listed isNamed
  have named : entry.1 = definition.name.display := of_decide_eq_true isNamed
  exact fixed (List.mem_map.mpr ⟨entry, listed, named⟩)

theorem exists_variableLengthSize? (target : Target)
    (variableLength : HasVariableLength definition) :
    ∃ size, variableLengthSize? definition.name target = some size ∧ size < 0 := by
  have negative : ∀ entry ∈ variableLengthTypes, ∀ pointer ∈ [4, 8],
      -(entry.2.getD (Int32.ofNat pointer)) < (0 : Int32) := by decide
  obtain ⟨entry, listed, isNamed⟩ := List.mem_map.mp variableLength
  have some : (variableLengthTypes.find? fun entry => entry.1 = definition.name.display).isSome :=
    List.find?_isSome.mpr ⟨entry, listed, decide_eq_true isNamed⟩
  obtain ⟨found, isFound⟩ := Option.isSome_iff_exists.mp some
  refine ⟨_, by rw [variableLengthSize?, isFound]; rfl,
    negative found (List.mem_of_find?_eq_some isFound) target.pointerSize ?_⟩
  rcases target.pointerSize_eq with size | size <;> simp [size]

/-! ## Main result -/

/-- Whether the layouts of a class and of its ancestors together describe an instance of so many
bytes with these fields. -/
structure StableBody (catalog : Catalog) (target : Target) (id : ClassId)
    (definition : ClassDefinition) (layout : InstanceLayout)
    (placed : List (FieldDefinition × Int32)) (size : Nat) : Prop where
  /-- The layouts of all ancestors can be made, and these are the offsets they give. -/
  isPlaced : catalog.placedFields target id = .ok placed
  /-- No field is left out. -/
  fields : catalog.instanceFields id = .ok (placed.map Prod.fst)
  inOrder : ByteRange.InOrder (target.headerRange :: placed.map target.fieldRange) size
  stored : ∃ body, StructLayout.build (target.bodyElements (placed.map Prod.fst)) = .ok body ∧
    body.size = size
  tracedOffsets : layout.tracedOffsets =
    (placed.filter fun entry => entry.1.type.isManagedReference).map Prod.snd
  fixedLength : ¬ HasVariableLength definition → layout.size.toInt = size
  variableLength : HasVariableLength definition → layout.size < 0

/-- In an accepted graph, inherited fields stand where the layouts of their own classes have them,
and with the header and the other fields they lie one behind the other in an instance. -/
theorem stableBody_of_sortClasses {catalog : Catalog} {sorted : List ClassId}
    (accepted : catalog.sortClasses = .ok sorted) {target : Target} {id : ClassId}
    {definition : ClassDefinition} (defined : catalog.definition? id = some definition)
    {layout : InstanceLayout} (laidOut : catalog.instanceLayout target id = .ok layout)
    {fields : List FieldDefinition} (answered : catalog.instanceFields id = .ok fields)
    (small : target.bodySize fields < 2 ^ 31) :
    ∃ placed, catalog.StableBody target id definition layout placed (target.bodySize fields) := by
  have graph := soundGraph_of_sortClasses accepted
  have order := classOrder_of_sortClasses accepted
  obtain ⟨chain, ancestry⟩ := exists_ancestry graph order ⟨definition, defined⟩
  have along := instanceFields_eq_fieldsAlong graph ancestry
  obtain rfl : catalog.fieldsAlong chain = fields := Except.ok.inj (along.symm.trans answered)
  obtain ⟨inherited, split⟩ := ancestry.exists_inherited defined
  have fits := Target.fitsWord_of_bodySize_lt small
  obtain ⟨⟨⟩, checked, made⟩ := bind_eq_ok.mp
    ((instanceLayout_eq_layoutBehind defined (split ▸ answered) (split ▸ fits)).symm.trans laidOut)
  obtain rfl : layoutBehind target definition inherited = layout := Except.ok.inj made
  have placed := placedFields_eq graph ancestry (fun other found =>
    Option.some.inj (found.symm.trans defined) ▸ checked) fits
  have allFields : ((catalog.fieldsAlong chain).zip ((target.fieldOffsets
      (catalog.fieldsAlong chain)).map Int32.ofNat)).map Prod.fst = catalog.fieldsAlong chain := by
    rw [List.map_fst_zip]
    rw [List.length_map, Target.fieldOffsets, Target.length_offsetsBehind]
  refine ⟨_, { isPlaced := placed, fields := by rw [allFields, answered]
               inOrder := Target.inOrder_fieldRanges small, stored := ?_, tracedOffsets := ?_
               fixedLength := fun fixed => ?_, variableLength := fun varying => ?_ }⟩
  · obtain ⟨body, built, _, size⟩ := Target.build_bodyElements fits
    exact ⟨body, by rw [allFields]; exact built, size⟩
  · rw [split]
    rfl
  · rw [layoutBehind, variableLengthSize?_eq_none fixed, ← split]
    exact Int32.toInt_ofNat_of_lt small
  · obtain ⟨size, listed, negative⟩ := exists_variableLengthSize? target varying
    rw [layoutBehind, listed]
    exact negative

/-- The reference of an arc stands behind the radius of its circle. -/
theorem shapes_stableBody :
    ∃ definition layout placed, shapes.definition? ⟨4⟩ = some definition ∧
      shapes.instanceLayout .iphone ⟨4⟩ = .ok layout ∧
      shapes.StableBody .iphone ⟨4⟩ definition layout placed 24 := by
  have laidOut : shapes.instanceLayout .iphone ⟨4⟩ = .ok ⟨24, [16], [16]⟩ := by decide +kernel
  have answered : shapes.instanceFields ⟨4⟩ = .ok [⟨"radius", .f64⟩, ⟨"next", .any⟩] := by
    decide +kernel
  have size : Target.iphone.bodySize [⟨"radius", .f64⟩, ⟨"next", .any⟩] = 24 := by decide
  obtain ⟨placed, stable⟩ := stableBody_of_sortClasses shapes_sortClasses rfl laidOut answered
    (by rw [size]; decide)
  exact ⟨_, _, placed, rfl, laidOut, size ▸ stable⟩

end Catalog

end TypeRecords
