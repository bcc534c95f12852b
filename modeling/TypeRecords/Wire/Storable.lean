import TypeRecords.Fault
import TypeRecords.OrderedMap
import TypeRecords.Wire.Binary
import TypeRecords.Wire.Json.Reader
import TypeRecords.Wire.Json.Writer

/-!
Types whose values can be stored in files.

Owns the class of such types, the stored form of texts, numbers of things, lists and maps, and the
two file formats: JSON and the binary form. Every value is recovered from its stored form.
-/

namespace TypeRecords.Wire

/-- How the values of a type are stored. -/
class Storable (α : Type) where
  /-- What the stored values look like. -/
  shape : Shape
  toValue : α → Value
  ofValue? : Value → Option α
  ofValue?_toValue (value : α) : ofValue? (toValue value) = some value

/-- Why the contents of a file are no value of a type. -/
inductive LoadError where
  | json (error : Json.Error) (contents : List UInt8)
  | binary (error : Binary.DecodeError)
  /-- A value of the right shape that means nothing. -/
  | meaningless

def LoadError.message : LoadError → String
  | .json error contents => error.message contents
  | .binary error => error.message
  | .meaningless => "meaningless value"

/-- The fault that cuts a load short, where the contents are not merely wrong. -/
def LoadError.fault? : LoadError → Option Fault
  | .binary (.mapTooLarge _) => some .mapTooLarge
  | _ => none

namespace Storable

/-- The JSON text of a value. -/
def toJson {α : Type} [Storable α] (value : α) : String :=
  Json.write (shape α) (toValue value)

/-- The bytes of a value. -/
def toBinary {α : Type} [Storable α] (value : α) : List UInt8 := Binary.encode (toValue value)

/-- Reads a file that holds JSON. -/
def ofJson (α : Type) [Storable α] (contents : List UInt8) : Except LoadError α :=
  match Json.read (shape α) contents with
  | .error error => .error (.json error contents)
  | .ok value =>
    match ofValue? value with
    | some result => .ok result
    | none => .error .meaningless

/-- Reads a file that holds the binary form, perhaps with something behind it. -/
def ofBinary (α : Type) [Storable α] (contents : List UInt8) : Except LoadError α :=
  match Binary.decode (shape α) contents with
  | .error error => .error (.binary error)
  | .ok (value, _) =>
    match ofValue? value with
    | some result => .ok result
    | none => .error .meaningless

/-! ## Texts -/

instance : Storable String where
  shape := .text
  toValue := .text
  ofValue?
    | .text text => some text
    | _ => none
  ofValue?_toValue _ := rfl

/-! ## Numbers of classes, functions and globals -/

instance : Storable ClassId where
  shape := .word
  toValue id := .word id.number
  ofValue?
    | .word number => some ⟨number⟩
    | _ => none
  ofValue?_toValue _ := rfl

instance : Storable FunctionId where
  shape := .word
  toValue id := .word id.number
  ofValue?
    | .word number => some ⟨number⟩
    | _ => none
  ofValue?_toValue _ := rfl

instance : Storable GlobalId where
  shape := .word
  toValue id := .word id.number
  ofValue?
    | .word number => some ⟨number⟩
    | _ => none
  ofValue?_toValue _ := rfl

/-! ## Optional values, lists and maps -/

section Containers

variable {α κ : Type} [Storable α] [Storable κ]

instance : Storable (Option α) where
  shape := .optional (shape α)
  toValue
    | none => .absent
    | some value => .present (toValue value)
  ofValue?
    | .absent => some none
    | .present value => (ofValue? value).map some
    | _ => none
  ofValue?_toValue value := by cases value <;> simp [ofValue?_toValue]

/-- Storing items and reading them back restores them. -/
theorem mapM_ofValue?_toValue (items : List α) :
    (items.map toValue).mapM ofValue? = some items := by
  induction items with
  | nil => rfl
  | cons item rest inductionHypothesis =>
    simp [List.mapM_cons, ofValue?_toValue, inductionHypothesis]

instance : Storable (List α) where
  shape := .sequence (shape α)
  toValue items := .sequence (items.map toValue)
  ofValue?
    | .sequence items => items.mapM ofValue?
    | _ => none
  ofValue?_toValue := mapM_ofValue?_toValue

/-- An entry of a map as a record of key and value. -/
def entryToValue (entry : κ × α) : Value := .record [toValue entry.1, toValue entry.2]

def entryOfValue? : Value → Option (κ × α)
  | .record [key, value] => do return (← ofValue? key, ← ofValue? value)
  | _ => none

theorem mapM_entryOfValue?_entryToValue (entries : List (κ × α)) :
    (entries.map entryToValue).mapM entryOfValue? = some entries := by
  induction entries with
  | nil => rfl
  | cons entry rest inductionHypothesis =>
    simp [List.mapM_cons, entryToValue, entryOfValue?, ofValue?_toValue] at inductionHypothesis ⊢
    simp [inductionHypothesis]

instance [DecidableEq κ] : Storable (OrderedMap κ α) where
  shape := .mapping (shape κ) (shape α)
  toValue map := .sequence (map.entries.map entryToValue)
  ofValue?
    | .sequence entries => (entries.mapM entryOfValue?).map OrderedMap.ofList
    | _ => none
  ofValue?_toValue map := by
    simp only [mapM_entryOfValue?_entryToValue, Option.map_some, OrderedMap.ofList_entries]

end Containers

end Storable

end TypeRecords.Wire
