import Mathlib.Data.List.Nodup
import TypeRecords.CSource.SourceUnit
import TypeRecords.Proofs.Outcome

/-!
The structs of a unit.

Owns what it means that a C type represents a storage type over a table of structs, and the one
statement of what representing a type does to the table: it appends structs, each of them new, each
for a struct type that occurs in the type, and each with members that are represented already. From
it follow all facts about tables. Equal C types represent equal storage types over any table. The
converse needs that no member list stands in the table twice. And a struct has a greater number than
all structs its members mention, because these were there before it.
-/

namespace TypeRecords

/-- Whether a storage type occurs in another one, at any depth. -/
inductive DataType.Occurs (part : DataType) : DataType → Prop
  | whole : Occurs part part
  | element {element : DataType} {length : Nat} (inside : Occurs part element) :
      Occurs part (.array element length)
  | member {member : DataType} {members : List DataType} (listed : member ∈ members)
      (inside : Occurs part member) : Occurs part (.struct members)

namespace CSource

/-- The numbers of the structs a C type mentions, also behind pointers. -/
def CType.structs : CType → List Nat
  | .pointer target => target.structs
  | .const type => type.structs
  | .struct number => [number]
  | .array element _ => element.structs
  | .void | .uint16 | .int32 | .int64 => []

namespace StructTable

/-! ## Representation -/

mutual

/-- Whether a C type represents a storage type. Arrays have the same length, and a struct has the
members that the storage type asks for. -/
inductive Represents (structs : StructTable) : DataType → CType → Prop
  | i32 : Represents structs .i32 .int32
  | i64 : Represents structs .i64 .int64
  | u16 : Represents structs .u16 .uint16
  | ptr : Represents structs .ptr (.pointer (.const .void))
  | array {element : DataType} {elementType : CType} {length : Nat}
      (each : Represents structs element elementType) :
      Represents structs (.array element length) (.array elementType length)
  | struct {members : List DataType} {memberTypes : List CType} {number : Nat}
      (defined : structs[number]? = some memberTypes)
      (each : RepresentsAll structs members memberTypes) :
      Represents structs (.struct members) (.struct number)

/-- Whether C types represent storage types, one by one. -/
inductive RepresentsAll (structs : StructTable) : List DataType → List CType → Prop
  | nil : RepresentsAll structs [] []
  | cons {member : DataType} {rest : List DataType} {memberType : CType} {restTypes : List CType}
      (first : Represents structs member memberType)
      (later : RepresentsAll structs rest restTypes) :
      RepresentsAll structs (member :: rest) (memberType :: restTypes)

end

variable {structs larger : StructTable} {asked : DataType → Prop}

theorem representsAll_iff {members : List DataType} {memberTypes : List CType} :
    structs.RepresentsAll members memberTypes ↔
      List.Forall₂ structs.Represents members memberTypes := by
  induction members generalizing memberTypes with
  | nil =>
    constructor
    · rintro ⟨⟩
      exact .nil
    · rintro ⟨⟩
      exact .nil
  | cons member rest inductionHypothesis =>
    constructor
    · rintro (_ | ⟨first, later⟩)
      exact .cons first (inductionHypothesis.mp later)
    · rintro (_ | ⟨first, later⟩)
      exact .cons first (inductionHypothesis.mpr later)

/-- A struct keeps its number when others are added. -/
theorem getElem?_of_added (added : structs <+: larger) {number : Nat} {memberTypes : List CType}
    (defined : structs[number]? = some memberTypes) : larger[number]? = some memberTypes := by
  obtain ⟨inside, rfl⟩ := List.getElem?_eq_some_iff.mp defined
  exact List.prefix_iff_getElem?.mp added number inside

mutual

theorem Represents.mono (added : structs <+: larger) :
    ∀ {type : DataType} {represented : CType}, structs.Represents type represented →
      larger.Represents type represented
  | _, _, .i32 => .i32
  | _, _, .i64 => .i64
  | _, _, .u16 => .u16
  | _, _, .ptr => .ptr
  | _, _, .array each => .array (each.mono added)
  | _, _, .struct defined each => .struct (getElem?_of_added added defined) (each.mono added)

theorem RepresentsAll.mono (added : structs <+: larger) :
    ∀ {types : List DataType} {represented : List CType}, structs.RepresentsAll types represented →
      larger.RepresentsAll types represented
  | _, _, .nil => .nil
  | _, _, .cons first later => .cons (first.mono added) (later.mono added)

end

mutual

/-- A C type represents one storage type at most. -/
theorem Represents.injective :
    ∀ {left right : DataType} {type : CType}, structs.Represents left type →
      structs.Represents right type → left = right
  | _, _, _, .i32, .i32 | _, _, _, .i64, .i64 | _, _, _, .u16, .u16 | _, _, _, .ptr, .ptr => rfl
  | _, _, _, .array first, .array second => by rw [first.injective second]
  | _, _, _, .struct defined first, .struct again second => by
    cases defined.symm.trans again
    rw [first.injective second]

theorem RepresentsAll.injective :
    ∀ {left right : List DataType} {types : List CType}, structs.RepresentsAll left types →
      structs.RepresentsAll right types → left = right
  | _, _, _, .nil, .nil => rfl
  | _, _, _, .cons first later, .cons second others => by
    rw [first.injective second, later.injective others]

end

mutual

/-- Where no member list stands twice, a storage type is represented by one C type at most. -/
theorem Represents.unique (distinct : structs.Nodup) :
    ∀ {type : DataType} {left right : CType}, structs.Represents type left →
      structs.Represents type right → left = right
  | _, _, _, .i32, .i32 | _, _, _, .i64, .i64 | _, _, _, .u16, .u16 | _, _, _, .ptr, .ptr => rfl
  | _, _, _, .array first, .array second => by rw [first.unique distinct second]
  | _, _, _, .struct defined first, .struct again second => by
    -- Both numbers lead to one member list, and no list stands in the table twice.
    rw [← first.unique distinct second] at again
    have inside := (List.getElem?_eq_some_iff.mp defined).1
    rw [(List.getElem?_inj inside distinct).mp (defined.trans again.symm)]

theorem RepresentsAll.unique (distinct : structs.Nodup) :
    ∀ {types : List DataType} {left right : List CType}, structs.RepresentsAll types left →
      structs.RepresentsAll types right → left = right
  | _, _, _, .nil, .nil => rfl
  | _, _, _, .cons first later, .cons second others => by
    rw [first.unique distinct second, later.unique distinct others]

end

/-- A type that represents a storage type mentions structs of the table only. -/
theorem Represents.lt_length :
    ∀ {type : DataType} {represented : CType}, structs.Represents type represented →
      ∀ number ∈ represented.structs, number < structs.length
  | _, _, .i32, _, mentioned | _, _, .i64, _, mentioned | _, _, .u16, _, mentioned
  | _, _, .ptr, _, mentioned => by simp [CType.structs] at mentioned
  | _, _, .array each, number, mentioned => each.lt_length number mentioned
  | _, _, .struct defined _, number, mentioned => by
    rw [List.mem_singleton.mp mentioned]
    exact (List.getElem?_eq_some_iff.mp defined).1

/-! ## Filled tables -/

/-- Whether a table was filled by adding structs one after the other. Each was new and is for a
struct type that was asked for, and its members were represented when it was added. -/
inductive Filled (asked : DataType → Prop) : StructTable → Prop
  | empty : Filled asked []
  | added {structs : StructTable} {members : List DataType} {memberTypes : List CType}
      (earlier : Filled asked structs) (asks : asked (.struct members))
      (each : structs.RepresentsAll members memberTypes) (isNew : memberTypes ∉ structs) :
      Filled asked (structs ++ [memberTypes])

namespace Filled

theorem mono {more : DataType → Prop} (filled : structs.Filled asked)
    (implies : ∀ type, asked type → more type) : structs.Filled more := by
  induction filled with
  | empty => exact .empty
  | added _ asks each isNew inductionHypothesis =>
    exact .added inductionHypothesis (implies _ asks) each isNew

theorem nodup (filled : structs.Filled asked) : structs.Nodup := by
  induction filled with
  | empty => exact List.nodup_nil
  | added _ _ _ isNew inductionHypothesis =>
    apply inductionHypothesis.append (List.nodup_singleton _)
    simpa using isNew

/-- Every struct is for a type that was asked for, and its members mention earlier structs only. -/
theorem exists_members (filled : structs.Filled asked) {number : Nat} {memberTypes : List CType}
    (defined : structs[number]? = some memberTypes) :
    ∃ members, asked (.struct members) ∧ structs.RepresentsAll members memberTypes ∧
      ∀ memberType ∈ memberTypes, ∀ other ∈ memberType.structs, other < number := by
  induction filled with
  | empty => simp at defined
  | @added structs members lastTypes _ asks each _ inductionHypothesis =>
    have added := List.prefix_append structs [lastTypes]
    by_cases earlier : number < structs.length
    · rw [List.getElem?_append_left earlier] at defined
      obtain ⟨found, foundAsks, foundEach, before⟩ := inductionHypothesis defined
      exact ⟨found, foundAsks, foundEach.mono added, before⟩
    · have inside := (List.getElem?_eq_some_iff.mp defined).1
      have isLast : number = structs.length := by simp at inside; omega
      subst isLast
      simp only [List.getElem?_concat_length, Option.some.injEq] at defined
      subst defined
      refine ⟨members, asks, each.mono added, fun memberType listed => ?_⟩
      obtain ⟨member, _, represents⟩ :=
        Outcome.exists_item_of_mem (representsAll_iff.mp each) listed
      exact represents.lt_length

end Filled

/-! ## Filling a table -/

/-- Interning finds a struct with the members, or adds one. -/
theorem intern_cases (structs : StructTable) (memberTypes : List CType) :
    (∃ number, structs[number]? = some memberTypes ∧
      structs.intern memberTypes = (structs, number)) ∨
    memberTypes ∉ structs ∧
      structs.intern memberTypes = (structs ++ [memberTypes], structs.length) := by
  unfold intern
  cases searched : structs.findIdx? fun other => other = memberTypes with
  | some number =>
    obtain ⟨inside, same, _⟩ := List.findIdx?_eq_some_iff_getElem.mp searched
    refine .inl ⟨number, ?_, rfl⟩
    rw [List.getElem?_eq_getElem inside, decide_eq_true_eq.mp same]
  | none =>
    refine .inr ⟨fun listed => ?_, rfl⟩
    simpa using List.findIdx?_eq_none_iff.mp searched memberTypes listed

/-- Whether a filled table is another one with structs added. -/
structure Extends (asked : DataType → Prop) (larger structs : StructTable) : Prop where
  added : structs <+: larger
  filled : larger.Filled asked

/-- A struct with represented members represents the struct type. -/
theorem Extends.intern {members : List DataType} {memberTypes : List CType}
    (extended : larger.Extends asked structs) (asks : asked (.struct members))
    (each : larger.RepresentsAll members memberTypes) :
    (larger.intern memberTypes).1.Extends asked structs ∧
      (larger.intern memberTypes).1.Represents (.struct members)
        (.struct (larger.intern memberTypes).2) := by
  rcases larger.intern_cases memberTypes with ⟨number, defined, same⟩ | ⟨isNew, same⟩
  · rw [same]
    exact ⟨extended, .struct defined each⟩
  · rw [same]
    have added := List.prefix_append larger [memberTypes]
    refine ⟨⟨extended.added.trans added, .added extended.filled asks each isNew⟩, ?_⟩
    exact .struct List.getElem?_concat_length (each.mono added)

mutual

/-- Representing a type extends the table by structs for its parts, and answers a C type that
represents it. -/
theorem extends_represent :
    ∀ (type : DataType) {structs : StructTable}, structs.Filled asked →
      (∀ part, part.Occurs type → asked part) →
        (structs.represent type).1.Extends asked structs ∧
          (structs.represent type).1.Represents type (structs.represent type).2
  | .i32, _, filled, _ => ⟨⟨List.prefix_refl _, filled⟩, .i32⟩
  | .i64, _, filled, _ => ⟨⟨List.prefix_refl _, filled⟩, .i64⟩
  | .u16, _, filled, _ => ⟨⟨List.prefix_refl _, filled⟩, .u16⟩
  | .ptr, _, filled, _ => ⟨⟨List.prefix_refl _, filled⟩, .ptr⟩
  | .array element length, _, filled, asks => by
    have inner := extends_represent element filled fun part inside => asks part (.element inside)
    exact ⟨inner.1, .array inner.2⟩
  | .struct members, _, filled, asks => by
    have inner := extends_representAll members filled fun member listed part inside =>
      asks part (.member listed inside)
    exact inner.1.intern (asks _ .whole) inner.2

theorem extends_representAll :
    ∀ (types : List DataType) {structs : StructTable}, structs.Filled asked →
      (∀ type ∈ types, ∀ part, part.Occurs type → asked part) →
        (structs.representAll types).1.Extends asked structs ∧
          (structs.representAll types).1.RepresentsAll types (structs.representAll types).2
  | [], _, filled, _ => ⟨⟨List.prefix_refl _, filled⟩, .nil⟩
  | type :: rest, structs, filled, asks => by
    rw [List.forall_mem_cons] at asks
    have first := extends_represent type filled asks.1
    -- The rest may add structs, and what represents the first type still does.
    have later := extends_representAll rest first.1.filled asks.2
    exact ⟨⟨first.1.added.trans later.1.added, later.1.filled⟩,
      .cons (first.2.mono later.1.added) later.2⟩

end

end StructTable

end CSource

end TypeRecords
