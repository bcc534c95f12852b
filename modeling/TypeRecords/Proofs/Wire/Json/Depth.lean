import TypeRecords.Proofs.Wire.Json.RoundTrip

/-!
Reading no deeper than allowed.

Owns the proof that no value is read whose text would nest as deep as lists and objects may not,
whichever way the text that was read puts it: records as lists and alternatives with a null payload
nest no less deep than the written form.
-/

namespace TypeRecords.Wire.Json

/-- Whether whatever is taken off has a property. -/
def Delivers {α : Type} (result : Except Error (α × List UInt8)) (good : α → Prop) : Prop :=
  ∀ value rest, result = .ok (value, rest) → good value

namespace Delivers

variable {α β : Type} {good : α → Prop}

theorem ok {value : α} {rest : List UInt8} (holds : good value) :
    Delivers (.ok (value, rest)) good := by
  intro _ _ taken
  cases taken
  exact holds

theorem error {failure : Error} : Delivers (.error failure) good := by
  intro _ _ taken
  cases taken

theorem bind {result : Except Error β} {next : β → Except Error (α × List UInt8)}
    (each : ∀ first, result = .ok first → Delivers (next first) good) :
    Delivers (result >>= next) good := by
  intro value rest taken
  obtain ⟨first, start, remaining⟩ := Outcome.bind_eq_ok.mp taken
  exact each first start value rest remaining

theorem ite {condition : Prop} [Decidable condition]
    {first second : Except Error (α × List UInt8)} (whenTrue : condition → Delivers first good)
    (whenFalse : ¬ condition → Delivers second good) :
    Delivers (if condition then first else second) good := by
  by_cases holds : condition
  · rw [if_pos holds]
    exact whenTrue holds
  · rw [if_neg holds]
    exact whenFalse holds

end Delivers

theorem delivers_failType {α : Type} {good : α → Prop} (expected : String) (rest : List UInt8) :
    Delivers (failType expected rest) good := by
  unfold failType
  split
  · exact .error
  · refine .ite (fun _ => .bind fun _ _ => .error) fun _ => ?_
    refine .ite (fun _ => .bind fun _ _ => .error) fun _ => ?_
    refine .ite (fun _ => .bind fun _ _ => .error) fun _ => ?_
    refine .ite (fun _ => .bind fun _ _ => .error) fun _ => ?_
    refine .ite (fun _ => .bind fun _ _ => .error) fun _ => ?_
    refine .ite (fun _ => .error) fun _ => .ite (fun _ => .error) fun _ => .error

/-! ## Brackets -/

theorem lt_of_openNested {depth : Nat} {rest opened : List UInt8}
    (succeeded : openNested depth rest = .ok opened) : 1 < depth := by
  rw [openNested] at succeeded
  split at succeeded
  · cases succeeded
  · omega

theorem delivers_readList {α : Type} {good : α → Prop} {depth : Nat} {contents : Reader α}
    (each : 1 < depth → ∀ bytes, Delivers (contents bytes) good) (bytes : List UInt8) :
    Delivers (readList depth contents bytes) good := by
  refine .bind fun opened succeeded => .bind fun taken settled => .bind fun _ _ => .ok ?_
  exact each (lt_of_openNested succeeded) opened taken.1 taken.2
    (Outcome.mapError_eq_ok.mp settled)

theorem delivers_readObject {α : Type} {good : α → Prop} {depth : Nat} {contents : Reader α}
    (each : 1 < depth → ∀ bytes, Delivers (contents bytes) good) (bytes : List UInt8) :
    Delivers (readObject depth contents bytes) good := by
  refine .bind fun opened succeeded => .bind fun taken settled => .bind fun _ _ => .ok ?_
  exact each (lt_of_openNested succeeded) opened taken.1 taken.2
    (Outcome.mapError_eq_ok.mp settled)

/-! ## Items and entries -/

theorem delivers_readItems {item : Reader Value} {good : Value → Prop}
    (each : ∀ bytes, Delivers (item bytes) good) (bound : Nat) (first : Bool)
    (bytes : List UInt8) :
    Delivers (readItems item bound first bytes) fun values => ∀ value ∈ values, good value := by
  induction bound generalizing first bytes with
  | zero => exact .error
  | succ bound inductionHypothesis =>
    refine .bind fun next _ => ?_
    cases next with
    | none => exact .ok (by simp)
    | some rest =>
      refine .bind fun taken start => .bind fun others remaining => .ok ?_
      exact List.forall_mem_cons.mpr ⟨each rest taken.1 taken.2 start,
        inductionHypothesis false taken.2 others.1 others.2 remaining⟩

theorem delivers_readEntries {key value : Reader Value} {shape : Shape} {most : Nat}
    (each : ∀ bytes, Delivers (value bytes) fun read => nesting shape read ≤ most) (bound : Nat)
    (first : Bool) (bytes : List UInt8) :
    Delivers (readEntries key value bound first bytes) fun entries =>
      entriesNesting shape entries ≤ most := by
  induction bound generalizing first bytes with
  | zero => exact .error
  | succ bound inductionHypothesis =>
    refine .bind fun next _ => ?_
    cases next with
    | none => exact .ok (Nat.zero_le most)
    | some rest =>
      refine .bind fun _ _ => .bind fun behind _ => .bind fun taken start =>
        .bind fun others remaining => .ok ?_
      rw [entriesNesting]
      exact Nat.max_le.mpr ⟨each behind taken.1 taken.2 start,
        inductionHypothesis false taken.2 others.1 others.2 remaining⟩

/-! ## Fields -/

section Fields

variable {ι : Type} {reader : ι → FieldReader} {good : ι → Value → Prop}

theorem delivers_readListedFields {expected : String} {items : List ι}
    (each : ∀ item ∈ items, ∀ bytes, Delivers ((reader item).read bytes) (good item))
    (index : Nat) (first : Bool) (bytes : List UInt8) :
    Delivers (readListedFields expected (items.map reader) index first bytes)
      (List.Forall₂ good items) := by
  induction items generalizing index first bytes with
  | nil => exact .ok .nil
  | cons item others inductionHypothesis =>
    rw [List.forall_mem_cons] at each
    refine .bind fun next _ => ?_
    cases next with
    | none => exact .error
    | some rest =>
      refine .bind fun taken start => .bind fun values remaining => .ok ?_
      exact .cons (each.1 rest taken.1 taken.2 start)
        (inductionHypothesis each.2 (index + 1) false taken.2 values.1 values.2 remaining)

theorem forall₂_set {α β : Type} {relation : α → β → Prop} {left : List α} {right : List β}
    (pairs : List.Forall₂ relation left right) {place : Nat} {item : α} {answer : β}
    (located : left[place]? = some item) (related : relation item answer) :
    List.Forall₂ relation left (right.set place answer) := by
  induction pairs generalizing place with
  | nil => exact .nil
  | cons first rest inductionHypothesis =>
    cases place with
    | zero =>
      simp only [List.getElem?_cons_zero, Option.some.injEq] at located
      exact .cons (located ▸ related) rest
    | succ place => exact .cons first (inductionHypothesis located)

/-- Whether what was found of each field so far has the property of the field. -/
def FoundGood (good : ι → Value → Prop) (items : List ι) (found : List (Option Value)) : Prop :=
  List.Forall₂ (fun item option => ∀ value, option = some value → good item value) items found

theorem delivers_readNamedFields {items : List ι}
    (each : ∀ item ∈ items, ∀ bytes, Delivers ((reader item).read bytes) (good item))
    (bound : Nat) (first : Bool) {found : List (Option Value)}
    (foundGood : FoundGood good items found) (bytes : List UInt8) :
    Delivers (readNamedFields (items.map reader) bound first found bytes)
      (FoundGood good items) := by
  induction bound generalizing first found bytes with
  | zero => exact .error
  | succ bound inductionHypothesis =>
    refine .bind fun next _ => ?_
    cases next with
    | none => exact .ok foundGood
    | some rest =>
      refine .bind fun name _ => ?_
      dsimp only
      split
      · exact .bind fun _ _ => .bind fun behind _ => inductionHypothesis false foundGood behind
      · rename_i field index searched
        refine .ite (fun _ => .error) fun _ => .bind fun behind _ => .bind fun taken start => ?_
        refine inductionHypothesis false ?_ taken.2
        have listed := List.mem_zipIdx_iff_getElem?.mp (List.mem_of_find?_eq_some searched)
        rw [List.getElem?_map, Option.map_eq_some_iff] at listed
        obtain ⟨item, located, isReader⟩ := listed
        refine forall₂_set foundGood located ?_
        rintro value same
        cases same
        have itemRead := each item (List.mem_of_getElem? located) behind taken.1 taken.2
        rw [isReader] at itemRead
        exact itemRead start

theorem delivers_completeFields {items : List ι} (absent : ∀ item ∈ items, good item .absent)
    {found : List (Option Value)} (foundGood : FoundGood good items found) {rest : List UInt8}
    {values : List Value}
    (completed : completeFields rest (items.map reader) found = .ok values) :
    List.Forall₂ good items values := by
  induction foundGood generalizing values with
  | nil =>
    cases completed
    exact .nil
  | @cons item option items found related _ inductionHypothesis =>
    rw [List.forall_mem_cons] at absent
    rw [List.map_cons, completeFields] at completed
    have others {value : Value} (holds : good item value)
        (built : (completeFields rest (items.map reader) found >>= fun others =>
          pure (value :: others)) = .ok values) : List.Forall₂ good (item :: items) values := by
      obtain ⟨others, othersCompleted, last⟩ := Outcome.bind_eq_ok.mp built
      cases Outcome.pure_eq_ok.mp last
      exact .cons holds (inductionHypothesis absent.2 othersCompleted)
    cases option with
    | some present => exact others (related present rfl) completed
    | none =>
      simp only [List.head?_cons, Option.join_some] at completed
      split at completed
      · exact others absent.1 completed
      · cases completed

/-- A record is read with values that have the properties of their fields. -/
theorem delivers_readRecord {typeName : String} {depth : Nat} {items : List ι}
    (absent : ∀ item ∈ items, good item .absent)
    (each : 1 < depth → ∀ item ∈ items, ∀ bytes,
      Delivers ((reader item).read bytes) (good item)) (bytes : List UInt8) :
    Delivers (readRecord typeName (items.map reader) depth bytes)
      fun values => 1 < depth ∧ List.Forall₂ good items values := by
  refine .bind fun rest _ => ?_
  refine .ite (fun _ => ?_) fun _ => .ite (fun _ => ?_) fun _ => delivers_failType _ _
  · refine delivers_readList (fun deep bytes => ?_) rest
    intro values _ taken
    exact ⟨deep, delivers_readListedFields (each deep) 0 true bytes _ _ taken⟩
  · refine delivers_readObject (fun deep bytes => ?_) rest
    refine .bind fun found read => .bind fun values completed => .ok ?_
    have nothingFound : FoundGood good items ((items.map reader).map fun _ => none) := by
      rw [FoundGood, List.map_map, List.forall₂_map_right_iff, List.forall₂_same]
      exact fun _ _ _ same => nomatch same
    have foundGood := delivers_readNamedFields (each deep) _ true nothingFound bytes found.1 found.2
      read
    exact ⟨deep, delivers_completeFields absent foundGood completed⟩

end Fields

/-! ## Choices -/

/-- How deep the text of an alternative nests. -/
def payloadDepth (shapes : List Shape) : List Value → Nat
  | [] => 0
  | [value] => nesting (shapes.headD .flag) value + 1
  | values => payloadNesting shapes values + 2

theorem nesting_variant {shape : Shape} {typeName name : String}
    {variants : List (String × List Shape)} {index : Nat} {shapes : List Shape}
    (isChoice : shape.unfolded = .choice typeName variants)
    (located : variants[index]? = some (name, shapes)) (payload : List Value) :
    nesting shape (.variant index payload) = payloadDepth shapes payload := by
  rw [nesting, variantShape_eq isChoice located]
  rfl

/-- Whether a reader takes no values whose text nests as deep as it may not. -/
def StaysWithin (named : TypeName → Nat → Reader Value) (shape : Shape) : Prop :=
  ∀ depth bytes, Delivers (readWith named shape depth bytes) fun value =>
    nesting shape value ≤ depth - 1

theorem payloadNesting_le_of_forall₂ {shapes : List Shape} {values : List Value} {most : Nat}
    (each : List.Forall₂ (fun shape value => nesting shape value ≤ most) shapes values) :
    payloadNesting shapes values ≤ most :=
  payloadNesting_le.mpr fun _ member => (List.forall₂_iff_zip.mp each).2 member

theorem fieldsNesting_le_of_forall₂ {fields : List (String × Shape)} {values : List Value}
    {most : Nat}
    (each : List.Forall₂ (fun field value => nesting field.2 value ≤ most) fields values) :
    fieldsNesting fields values ≤ most :=
  fieldsNesting_le.mpr fun _ member => (List.forall₂_iff_zip.mp each).2 member

theorem delivers_payloadRead {named : TypeName → Nat → Reader Value} {typeName name : String}
    {depth : Nat} {shapes : List Shape} (positive : 0 < depth)
    (each : ∀ shape ∈ shapes, StaysWithin named shape) (bytes : List UInt8) :
    Delivers (payloadRead named typeName name depth shapes bytes) fun payload =>
      payloadDepth shapes payload ≤ depth := by
  rcases shapes with _ | ⟨first, _ | ⟨second, others⟩⟩
  · refine .bind fun rest _ => .ite (fun _ => .bind fun _ _ => .ok (Nat.zero_le depth))
      fun _ => delivers_failType _ _
  · refine .bind fun taken start => .ok ?_
    have within := each first (by simp) depth bytes taken.1 taken.2 start
    show nesting first taken.1 + 1 ≤ depth
    omega
  · refine .bind fun rest _ => .ite (fun _ => ?_) fun _ => delivers_failType _ _
    refine delivers_readList (fun deep bytes values rest taken => ?_) rest
    have delivered : Delivers (readListedFields
          (countedElements s!"tuple variant {typeName}::{name}" (first :: second :: others).length)
          ((first :: second :: others).map (payloadReader named (depth - 1))) 0 true bytes)
        (List.Forall₂ (fun shape value => nesting shape value ≤ depth - 1 - 1)
          (first :: second :: others)) :=
      delivers_readListedFields (fun shape member => each shape member (depth - 1)) 0 true bytes
    have pairs := delivered values rest taken
    have inside := payloadNesting_le_of_forall₂ pairs
    cases pairs with
    | cons _ later =>
      cases later with
      | cons =>
        show payloadNesting _ _ + 2 ≤ depth
        omega

theorem getElem?_of_readVariantName {variants : List VariantReader} {bytes rest : List UInt8}
    {variant : VariantReader} {index : Nat}
    (taken : readVariantName variants bytes = .ok ((variant, index), rest)) :
    variants[index]? = some variant := by
  obtain ⟨named, _, remaining⟩ := Outcome.bind_eq_ok.mp taken
  dsimp only at remaining
  split at remaining
  · rename_i found searched
    cases Outcome.pure_eq_ok.mp remaining
    exact List.mem_zipIdx_iff_getElem?.mp (List.mem_of_find?_eq_some searched)
  · cases remaining

theorem delivers_readChoice {named : TypeName → Nat → Reader Value} {typeName : String}
    {variants : List (String × List Shape)}
    (each : ∀ variant ∈ variants, ∀ shape ∈ variant.2, StaysWithin named shape) :
    StaysWithin named (.choice typeName variants) := by
  intro depth bytes
  show Delivers (readChoice (variantReaders named typeName variants (depth - 1)) depth bytes) _
  rw [variantReaders_eq]
  have locate {variant : VariantReader} {index : Nat} (located :
      (variants.map (variantReader named typeName (depth - 1)))[index]? = some variant) :
      ∃ name shapes, variants[index]? = some (name, shapes) ∧
        variant = variantReader named typeName (depth - 1) (name, shapes) := by
    rw [List.getElem?_map, Option.map_eq_some_iff] at located
    obtain ⟨⟨name, shapes⟩, found, rfl⟩ := located
    exact ⟨name, shapes, found, rfl⟩
  refine .bind fun rest _ => .ite (fun _ => ?_) fun _ => .ite (fun _ => ?_) fun _ => .error
  · refine .bind fun opened succeeded => .bind fun toName _ => .bind fun found named => ?_
    obtain ⟨name, shapes, found, isReader⟩ := locate (getElem?_of_readVariantName named)
    refine .bind fun behind _ => .bind fun payload taken => ?_
    refine .ite (fun _ => .error) fun _ => .ite (fun _ => .ok ?_) fun _ => .error
    have deep := lt_of_openNested succeeded
    rw [isReader] at taken
    rw [nesting_variant rfl found]
    exact delivers_payloadRead (by omega) (each _ (List.mem_of_getElem? found)) behind payload.1
      payload.2 taken
  · refine .bind fun found named => ?_
    obtain ⟨name, shapes, located, isReader⟩ := locate (getElem?_of_readVariantName named)
    dsimp only
    split
    · refine .ok ?_
      rw [nesting_variant rfl located]
      exact Nat.zero_le _
    · exact .error
    · exact .error

/-! ## Shapes -/

theorem nesting_named (name : TypeName) (value : Value) :
    nesting (.named name) value = nesting name.shape value := by
  cases value with
  | variant index payload =>
    have sameVariant : variantShape (.named name) index = variantShape name.shape index := by
      cases name <;> rfl
    rw [nesting, nesting, sameVariant]
  | _ => cases name <;> rfl

section Shapes

variable {named : TypeName → Nat → Reader Value}

mutual

theorem staysWithin (namedWithin : ∀ name, StaysWithin named (.named name)) :
    (shape : Shape) → StaysWithin named shape
  | .flag, depth, bytes => by
    refine .bind fun rest _ => .ite (fun _ => .bind fun _ _ => .ok (Nat.zero_le _)) fun _ => ?_
    exact .ite (fun _ => .bind fun _ _ => .ok (Nat.zero_le _)) fun _ => delivers_failType _ _
  | .word, depth, bytes => .bind fun _ _ => .ok (Nat.zero_le _)
  | .int32, depth, bytes => .bind fun _ _ => .ok (Nat.zero_le _)
  | .int64, depth, bytes => .bind fun _ _ => .ok (Nat.zero_le _)
  | .text, depth, bytes => .bind fun _ _ => .ok (Nat.zero_le _)
  | .optional item, depth, bytes => by
    rw [readWith]
    refine .ite (fun _ => .bind fun _ _ => .ok (Nat.zero_le _)) fun _ => ?_
    exact .bind fun taken start => .ok (staysWithin namedWithin item depth _ taken.1 taken.2 start)
  | .sequence item, depth, bytes => by
    refine .bind fun rest _ => .ite (fun _ => .bind fun taken start => .ok ?_)
      fun _ => delivers_failType _ _
    have read : Delivers (readList depth
          (readItems (readWith named item (depth - 1)) (rest.length + 1) true) rest)
        fun items => itemsNesting item items + 1 ≤ depth - 1 := by
      refine delivers_readList (fun deep bytes items _ itemsTaken => ?_) rest
      have inside := itemsNesting_le.mpr (delivers_readItems
        (staysWithin namedWithin item (depth - 1)) _ true bytes items _ itemsTaken)
      omega
    exact read taken.1 taken.2 start
  | .mapping key value, depth, bytes => by
    refine .bind fun rest _ => .ite (fun _ => .bind fun taken start => .ok ?_)
      fun _ => delivers_failType _ _
    have read : Delivers (readObject depth (readEntries (readKey key)
          (readWith named value (depth - 1)) (rest.length + 1) true) rest)
        fun entries => entriesNesting value entries + 1 ≤ depth - 1 := by
      refine delivers_readObject (fun deep bytes entries _ entriesTaken => ?_) rest
      have inside := delivers_readEntries (staysWithin namedWithin value (depth - 1)) _ true bytes
        entries _ entriesTaken
      omega
    exact read taken.1 taken.2 start
  | .record typeName fields, depth, bytes => by
    rw [readWith, fieldReaders_eq]
    refine .bind fun taken start => .ok ?_
    have read : Delivers (readRecord typeName (fields.map (fieldReader named (depth - 1))) depth
          bytes)
        fun values => 1 < depth ∧
          List.Forall₂ (fun field value => nesting field.2 value ≤ depth - 1 - 1) fields values :=
      delivers_readRecord (fun _ _ => Nat.zero_le _)
        (fun _ field member => fieldsStayWithin namedWithin fields field member (depth - 1)) bytes
    obtain ⟨deep, pairs⟩ := read taken.1 taken.2 start
    have inside := fieldsNesting_le_of_forall₂ pairs
    show fieldsNesting fields taken.1 + 1 ≤ depth - 1
    omega
  | .choice _ variants, depth, bytes =>
    delivers_readChoice (variantsStayWithin namedWithin variants) depth bytes
  | .named name, depth, bytes => namedWithin name depth bytes

theorem fieldsStayWithin (namedWithin : ∀ name, StaysWithin named (.named name)) :
    (fields : List (String × Shape)) → ∀ field ∈ fields, StaysWithin named field.2
  | [] => by simp
  | (_, shape) :: fields => List.forall_mem_cons.mpr
    ⟨staysWithin namedWithin shape, fieldsStayWithin namedWithin fields⟩

theorem variantsStayWithin (namedWithin : ∀ name, StaysWithin named (.named name)) :
    (variants : List (String × List Shape)) →
      ∀ variant ∈ variants, ∀ shape ∈ variant.2, StaysWithin named shape
  | [] => by simp
  | (_, payload) :: variants => List.forall_mem_cons.mpr
    ⟨allStayWithin namedWithin payload, variantsStayWithin namedWithin variants⟩

theorem allStayWithin (namedWithin : ∀ name, StaysWithin named (.named name)) :
    (shapes : List Shape) → ∀ shape ∈ shapes, StaysWithin named shape
  | [] => by simp
  | shape :: shapes => List.forall_mem_cons.mpr
    ⟨staysWithin namedWithin shape, allStayWithin namedWithin shapes⟩

end

end Shapes

theorem staysWithin_readNamed (bound : Nat) (name : TypeName) :
    StaysWithin (readNamed bound) (.named name) := by
  induction bound generalizing name with
  | zero => exact fun _ _ => .error
  | succ bound inductionHypothesis =>
    intro depth bytes
    show Delivers (readWith (readNamed bound) name.shape depth bytes) _
    simp only [nesting_named]
    exact staysWithin inductionHypothesis name.shape depth bytes

/-- Whatever is read nests less deep than lists and objects may. -/
theorem nesting_lt_of_read {shape : Shape} {bytes : List UInt8} {value : Value}
    (succeeded : read shape bytes = .ok value) : nesting shape value < depthLimit := by
  obtain ⟨taken, start, remaining⟩ := Outcome.bind_eq_ok.mp succeeded
  have within := staysWithin (staysWithin_readNamed depthLimit) shape depthLimit bytes taken.1
    taken.2 start
  dsimp only at remaining
  split at remaining
  · rw [← Outcome.pure_eq_ok.mp remaining]
    exact Nat.lt_of_le_of_lt within (by decide)
  · cases remaining

end TypeRecords.Wire.Json
