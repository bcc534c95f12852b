import Mathlib.Data.List.Nodup
import TypeRecords.Proofs.Segment.Growth

/-!
The names of globals, and the edits that cannot fail.

Owns what an edit does to the names of a segment, and the proof that an unused name is free. The
search for it ends because the numbered candidates differ: there is one more of them than there
are names, so one is not taken, whatever the names look like. An edit under such a name therefore
never fails. The edits that ask for a fixed name do, and only where another global has it.
-/

namespace TypeRecords

namespace Segment

variable {segment before after : Segment} {name wanted : String} {id : GlobalId}

theorem find?_names_withGlobal (segment : Segment) (global : Global) (wanted : String) :
    (segment.withGlobal global).names.find? wanted =
      if wanted = global.name then some segment.nextId else segment.names.find? wanted :=
  OrderedMap.find?_insert _ _ _ _

/-- A global under a free name takes no name away. -/
theorem find?_names_withGlobal_of_free {global : Global}
    (isFree : segment.names.find? global.name = none) {place : GlobalId}
    (found : segment.names.find? wanted = some place) :
    (segment.withGlobal global).names.find? wanted = some place := by
  have differs : wanted ≠ global.name := by
    rintro rfl
    rw [isFree] at found
    cases found
  rw [find?_names_withGlobal, if_neg differs]
  exact found

/-! ## Numbered names -/

theorem eq_of_repr_eq {first second : Nat} (same : first.repr = second.repr) : first = second := by
  have sameDigits : Nat.toDigits 10 first = Nat.toDigits 10 second := by
    rw [← Nat.toList_repr, same, Nat.toList_repr]
  calc
    first = Nat.ofDigitChars 10 (Nat.toDigits 10 first) 0 := Nat.ofDigitChars_ten_toDigits.symm
    _ = Nat.ofDigitChars 10 (Nat.toDigits 10 second) 0 := by rw [sameDigits]
    _ = second := Nat.ofDigitChars_ten_toDigits

/-- The name under which a string is placed when so many are there already. -/
def stringName (number : Nat) : String := s!"kstr:{number}"

theorem stringName_injective {first second : Nat} (same : stringName first = stringName second) :
    first = second :=
  eq_of_repr_eq (String.append_right_inj (s := "kstr:") |>.mp same)

/-! ## Unused names -/

/-- A name with a numeric suffix. -/
def suffixedName (name : String) (suffix : Nat) : String := s!"{name}.{suffix}"

theorem suffixedName_injective {first second : Nat}
    (same : suffixedName name first = suffixedName name second) : first = second := by
  have sameEnd : (name ++ ".") ++ first.repr = (name ++ ".") ++ second.repr := same
  exact eq_of_repr_eq (String.append_right_inj (s := name ++ ".") |>.mp sameEnd)

/-- Among one more numbered names than there are names, one is free. -/
theorem exists_free_suffix (names : OrderedMap String GlobalId) (name : String) :
    ∃ suffix ∈ List.range' 1 (names.size + 1),
      names.contains (suffixedName name suffix) = false := by
  by_contra noneFree
  have taken : ((List.range' 1 (names.size + 1)).map (suffixedName name)) ⊆ names.keys := by
    intro candidate member
    obtain ⟨suffix, listed, rfl⟩ := List.mem_map.mp member
    have present : names.contains (suffixedName name suffix) = true := by
      by_contra absent
      exact noneFree ⟨suffix, listed, by simpa using absent⟩
    exact OrderedMap.mem_keys_iff.mpr (Option.isSome_iff_exists.mp present)
  have distinct : ((List.range' 1 (names.size + 1)).map (suffixedName name)).Nodup :=
    List.Nodup.map (fun _ _ same => suffixedName_injective same) List.nodup_range'
  have tooMany := distinct.length_le_of_subset taken
  have few : names.keys.length = names.size := List.length_map _
  rw [List.length_map, List.length_range', few] at tooMany
  omega

/-- An unused name is the name itself where it is free, and else the name with the least suffix
that is. -/
theorem unusedName_cases (segment : Segment) (name : String) :
    (segment.names.find? name = none ∧ segment.unusedName name = name) ∨
      (segment.names.contains name = true ∧ ∃ suffix, 1 ≤ suffix ∧
        segment.unusedName name = suffixedName name suffix ∧
        segment.names.find? (suffixedName name suffix) = none ∧
        ∀ lower, 1 ≤ lower → lower < suffix →
          segment.names.contains (suffixedName name lower) = true) := by
  unfold unusedName
  cases present : segment.names.contains name with
  | false =>
    rw [if_neg (by simp)]
    exact .inl ⟨by simpa [OrderedMap.contains] using present, rfl⟩
  | true =>
    rw [if_pos rfl]
    refine .inr ⟨rfl, ?_⟩
    dsimp only
    change ∃ suffix, 1 ≤ suffix ∧ (((List.range' 1 (segment.names.size + 1)).map
      (suffixedName name)).find? fun candidate => !segment.names.contains candidate).getD name =
        suffixedName name suffix ∧ _
    rw [List.find?_map]
    cases searched : (List.range' 1 (segment.names.size + 1)).find?
        ((fun candidate => !segment.names.contains candidate) ∘ suffixedName name) with
    | none =>
      obtain ⟨suffix, listed, isFree⟩ := exists_free_suffix segment.names name
      have rejected := List.find?_eq_none.mp searched suffix listed
      simp [isFree] at rejected
    | some suffix =>
      obtain ⟨isFree, listed, least⟩ := List.find?_range'_eq_some.mp searched
      refine ⟨suffix, (List.mem_range'_1.mp listed).1, rfl, ?_, fun lower above below => ?_⟩
      · simpa [OrderedMap.contains] using isFree
      · simpa using least lower above below

theorem find?_unusedName (segment : Segment) (name : String) :
    segment.names.find? (segment.unusedName name) = none := by
  rcases unusedName_cases segment name with ⟨isFree, same⟩ | ⟨_, suffix, _, same, isFree, _⟩
  · rw [same]
    exact isFree
  · rw [same]
    exact isFree

theorem exists_unusedName_eq_append (segment : Segment) (name : String) :
    ∃ rest, segment.unusedName name = name ++ rest := by
  rcases unusedName_cases segment name with ⟨_, same⟩ | ⟨_, suffix, _, same, _, _⟩
  · exact ⟨"", by rw [same, String.append_empty]⟩
  · exact ⟨"." ++ suffix.repr, by rw [same, ← String.append_assoc]; rfl⟩

/-! ## Edits under unused names -/

theorem placeFresh_eq (name : String) (initial : Constant) (segment : Segment) :
    placeFresh name initial segment = .ok (segment.nextId,
      segment.withGlobal (placedGlobal (segment.unusedName name) initial)) :=
  placeFresh_eq_ok.mpr ⟨find?_unusedName segment name, rfl, rfl⟩

theorem placeArray_eq (name : String) (element : DataType) (items : List Constant)
    (segment : Segment) :
    placeArray name element items segment = .ok (segment.nextId,
      segment.withGlobal (placedGlobal (segment.unusedName name) (.array element items))) :=
  placeFresh_eq name (.array element items) segment

theorem declareFresh_eq (name : String) (type : DataType) (segment : Segment) :
    declareFresh name type segment = .ok (segment.nextId,
      segment.withGlobal ⟨segment.unusedName name, type, none, false, .internal⟩) :=
  declareFresh_eq_ok.mpr ⟨find?_unusedName segment name, rfl, rfl⟩

theorem placeWritable_eq (name : String) (type : DataType) (segment : Segment) :
    placeWritable name type segment = .ok (segment.nextId,
      segment.withGlobal ⟨segment.unusedName name, type, some (.zero type), false, .internal⟩) :=
  placeWritable_eq_ok.mpr ⟨find?_unusedName segment name, rfl, rfl⟩

/-! ## Edits under a fixed name -/

theorem declare_eq_error {type : DataType} {constant : Bool} {linkage : Linkage} {fault : Fault} :
    declare name type constant linkage before = .error fault ↔
      ∃ existing, before.names.find? name = some existing ∧
        .globalNameTaken name existing = fault := by
  unfold declare
  cases before.names.find? name with
  | none => simp
  | some existing => simp

/-- A symbol that is taken is no failure of the edit. -/
theorem declareExported_ne_error {symbol : String} {type : DataType} {fault : Fault} :
    declareExported symbol type before ≠ .error fault := by
  cases found : before.findByName? symbol with
  | some existing =>
    rw [declareExported_eq_ok.mpr (.inl ⟨existing, found, rfl, rfl⟩)]
    simp
  | none =>
    rw [declareExported_eq_ok.mpr (.inr ⟨found, rfl, rfl⟩)]
    simp

/-- The global that was appended last can be defined and changed. -/
theorem define_withGlobal_ne_error {global : Global} {initial : Constant} {fault : Fault}
    (undefined : global.initial = none) :
    define before.nextId initial (before.withGlobal global) ≠ .error fault := by
  have defined : define before.nextId initial (before.withGlobal global) = .ok ((), _) :=
    (define_withGlobal_eq_ok undefined).mpr rfl
  rw [defined]
  simp

theorem setConstant_withGlobal_ne_error {global : Global} {constant : Bool} {fault : Fault} :
    setConstant before.nextId constant (before.withGlobal global) ≠ .error fault := by
  have set : setConstant before.nextId constant (before.withGlobal global) = .ok ((), _) :=
    setConstant_withGlobal_eq_ok.mpr rfl
  rw [set]
  simp

theorem addUsed_ne_error {global : Global} (found : before.get? id = some global) {fault : Fault} :
    addUsed id before ≠ .error fault := by
  obtain ⟨inside, _⟩ := List.getElem?_eq_some_iff.mp found
  unfold addUsed
  rw [if_pos inside]
  split <;> simp

/-- A string can be interned unless it is new and its name is taken. -/
theorem internString_eq_error {text : String} {fault : Fault}
    (failed : internString text before = .error fault) :
    before.strings.find? text = none ∧
      ∃ existing, before.names.find? (stringName before.strings.size) = some existing ∧
        .globalNameTaken (stringName before.strings.size) existing = fault := by
  cases known : before.strings.find? text with
  | some existing =>
    have interned : internString text before = .ok (existing, before) :=
      internString_eq_ok.mpr (.inl ⟨known, rfl⟩)
    rw [interned] at failed
    cases failed
  | none =>
    refine ⟨rfl, ?_⟩
    cases taken : before.names.find? (stringName before.strings.size) with
    | none =>
      have interned := internString_eq_ok.mpr (.inr ⟨known, taken, rfl, rfl⟩)
      rw [interned] at failed
      cases failed
    | some existing =>
      have declaring : place (stringName before.strings.size) (.utf16 text) before =
          .error (.globalNameTaken (stringName before.strings.size) existing) := by
        have refused : declare (stringName before.strings.size) (Constant.utf16 text).type true
            .internal before =
              .error (.globalNameTaken (stringName before.strings.size) existing) :=
          declare_eq_error.mpr ⟨existing, taken, rfl⟩
        show (declare _ _ _ _ before >>= _) = _
        rw [refused]
        rfl
      have interning : internString text before =
          .error (.globalNameTaken (stringName before.strings.size) existing) := by
        unfold internString
        rw [edit_get_bind, known]
        show (place (stringName before.strings.size) (.utf16 text) before >>= _) = _
        rw [declaring]
        rfl
      rw [interning] at failed
      cases failed
      exact ⟨existing, rfl, rfl⟩

/-! ## Placing a record -/

/-- The count of a table that was placed with its array agrees with it. -/
theorem HoldsArray.checkTable_placed {element : DataType} {items : List Constant}
    (held : segment.HoldsArray id element items) {count : Nat} (counted : items.length = count)
    (table : String) : segment.checkTable table (.placed id count) = .ok () := by
  obtain ⟨_, found⟩ := held
  simp [checkTable, Table.placed, found, placedGlobal, Constant.type, counted]

theorem HoldsArray.checkTable_notApplicable {element : DataType}
    (held : segment.HoldsArray id element []) (table : String) :
    segment.checkTable table (.notApplicable id) = .ok () := by
  obtain ⟨_, found⟩ := held
  simp [checkTable, Table.notApplicable, found, placedGlobal, Constant.type]

end Segment

end TypeRecords
