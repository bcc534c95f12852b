import TypeRecords.Wire.Json.Writer

/-!
How deep JSON texts nest, and which shapes they can be read back by.

Owns both measures of what is written: the lists and objects that the text of a value has one inside
the other, and the shapes whose texts tell their values apart.
-/

namespace TypeRecords.Wire

/-! ## Shapes that can be read back -/

/-- Whether keys of a map may have a shape. -/
def Shape.isKey : Shape → Bool
  | .word | .text => true
  | _ => false

mutual

/-- Whether texts of a shape are unambiguous: names are distinct, keys are words or texts, and what
may be missing is not itself something that may be missing. -/
def Shape.readable : Shape → Bool
  | .optional item => !item.isOptional && item.readable
  | .sequence item => item.readable
  | .mapping key value => key.isKey && value.readable
  | .record _ fields => decide (fields.map Prod.fst).Nodup && Shape.fieldsReadable fields
  | .choice _ variants => decide (variants.map Prod.fst).Nodup && Shape.variantsReadable variants
  | _ => true

def Shape.fieldsReadable : List (String × Shape) → Bool
  | [] => true
  | (_, shape) :: fields => shape.readable && Shape.fieldsReadable fields

def Shape.variantsReadable : List (String × List Shape) → Bool
  | [] => true
  | (_, payload) :: variants => Shape.allReadable payload && Shape.variantsReadable variants

def Shape.allReadable : List Shape → Bool
  | [] => true
  | shape :: shapes => shape.readable && Shape.allReadable shapes

end

theorem Shape.fieldsReadable_iff {fields : List (String × Shape)} :
    Shape.fieldsReadable fields = true ↔ ∀ field ∈ fields, field.2.readable = true := by
  induction fields with
  | nil => simp [Shape.fieldsReadable]
  | cons field fields inductionHypothesis =>
    rw [Shape.fieldsReadable, Bool.and_eq_true, inductionHypothesis, List.forall_mem_cons]

theorem Shape.allReadable_iff {shapes : List Shape} :
    Shape.allReadable shapes = true ↔ ∀ shape ∈ shapes, shape.readable = true := by
  induction shapes with
  | nil => simp [Shape.allReadable]
  | cons shape shapes inductionHypothesis =>
    rw [Shape.allReadable, Bool.and_eq_true, inductionHypothesis, List.forall_mem_cons]

theorem Shape.variantsReadable_iff {variants : List (String × List Shape)} :
    Shape.variantsReadable variants = true ↔
      ∀ variant ∈ variants, Shape.allReadable variant.2 = true := by
  induction variants with
  | nil => simp [Shape.variantsReadable]
  | cons variant variants inductionHypothesis =>
    rw [Shape.variantsReadable, Bool.and_eq_true, inductionHypothesis, List.forall_mem_cons]

theorem TypeName.shape_readable (name : TypeName) : name.shape.readable = true := by
  cases name <;> decide

theorem Shape.unfolded_readable {shape : Shape} (readable : shape.readable = true) :
    shape.unfolded.readable = true := by
  cases shape with
  | named name => exact name.shape_readable
  | _ => exact readable

namespace Json

/-! ## How deep a text nests -/

mutual

/-- How many lists and objects the text of a value has one inside the other. -/
def nesting (shape : Shape) : Value → Nat
  | .present value => nesting (itemShape shape) value
  | .sequence items =>
    match entryShapes? shape with
    | some (_, value) => entriesNesting value items + 1
    | none => itemsNesting (itemShape shape) items + 1
  | .record fields => fieldsNesting (fieldShapes shape) fields + 1
  | .variant index payload =>
    let (_, shapes) := variantShape shape index
    match payload with
    | [] => 0
    | [value] => nesting (shapes.headD .flag) value + 1
    | values => payloadNesting shapes values + 2
  | _ => 0

def itemsNesting (shape : Shape) : List Value → Nat
  | [] => 0
  | item :: rest => max (nesting shape item) (itemsNesting shape rest)

def fieldsNesting : List (String × Shape) → List Value → Nat
  | (_, shape) :: fields, value :: values => max (nesting shape value) (fieldsNesting fields values)
  | _, _ => 0

def payloadNesting : List Shape → List Value → Nat
  | shape :: shapes, value :: values => max (nesting shape value) (payloadNesting shapes values)
  | _, _ => 0

def entriesNesting (shape : Shape) : List Value → Nat
  | .record [_, value] :: rest => max (nesting shape value) (entriesNesting shape rest)
  | _ => 0

end

theorem itemsNesting_le {shape : Shape} {items : List Value} {most : Nat} :
    itemsNesting shape items ≤ most ↔ ∀ item ∈ items, nesting shape item ≤ most := by
  induction items with
  | nil => simp [itemsNesting]
  | cons item items inductionHypothesis =>
    rw [itemsNesting, Nat.max_le, inductionHypothesis, List.forall_mem_cons]

theorem entriesNesting_le {shape : Shape} {entries : List (Value × Value)} {most : Nat} :
    entriesNesting shape (entries.map fun entry => .record [entry.1, entry.2]) ≤ most ↔
      ∀ entry ∈ entries, nesting shape entry.2 ≤ most := by
  induction entries with
  | nil => simp [entriesNesting]
  | cons entry entries inductionHypothesis =>
    rw [List.map_cons, entriesNesting, Nat.max_le, inductionHypothesis, List.forall_mem_cons]

theorem fieldsNesting_le {fields : List (String × Shape)} {values : List Value} {most : Nat} :
    fieldsNesting fields values ≤ most ↔
      ∀ pair ∈ fields.zip values, nesting pair.1.2 pair.2 ≤ most := by
  induction fields generalizing values with
  | nil => simp [fieldsNesting]
  | cons field fields inductionHypothesis =>
    cases values with
    | nil => simp [fieldsNesting]
    | cons value values =>
      rw [fieldsNesting, Nat.max_le, inductionHypothesis, List.zip_cons_cons,
        List.forall_mem_cons]

theorem payloadNesting_le {shapes : List Shape} {values : List Value} {most : Nat} :
    payloadNesting shapes values ≤ most ↔
      ∀ pair ∈ shapes.zip values, nesting pair.1 pair.2 ≤ most := by
  induction shapes generalizing values with
  | nil => simp [payloadNesting]
  | cons shape shapes inductionHypothesis =>
    cases values with
    | nil => simp [payloadNesting]
    | cons value values =>
      rw [payloadNesting, Nat.max_le, inductionHypothesis, List.zip_cons_cons,
        List.forall_mem_cons]

end Json

end TypeRecords.Wire
