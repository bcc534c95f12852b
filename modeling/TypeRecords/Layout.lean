import TypeRecords.Fault
import TypeRecords.Target

/-!
Naturally aligned layouts.

Owns the storage classes of fields with their sizes on a target, and the layout of a list of
elements: each stands at the next offset its alignment allows, and the whole is filled up to its
largest alignment. Sizes and offsets are 64-bit words.
-/

namespace TypeRecords

/-- Storage classes of the elements of an object. -/
inductive Scalar where
  | bool
  | i8
  | i16
  | i32
  | i64
  | f32
  | f64
  | ptr
deriving DecidableEq, Repr

/-- The size of a storage class, which is also its alignment. -/
def Scalar.size (scalar : Scalar) (target : Target) : Nat :=
  match scalar with
  | .bool | .i8 => 1
  | .i16 => 2
  | .i32 | .f32 => 4
  | .i64 | .f64 => 8
  | .ptr => target.pointerSize

/-- An element to lay out. -/
structure Element where
  size : Nat
  alignment : Nat
deriving DecidableEq, Repr, Inhabited

/-- The element that holds a storage class. -/
def Scalar.element (scalar : Scalar) (target : Target) : Element :=
  ⟨scalar.size target, scalar.size target⟩

/-- Offsets of the elements, and size and alignment of the whole. -/
structure StructLayout where
  offsets : List Nat
  size : Nat
  alignment : Nat
deriving DecidableEq, Repr, Inhabited

/-- The offset moved up to an alignment: all bits below the alignment are cleared in the 64-bit
word of the last offset that may still round up to the same place. -/
def alignUp (offset alignment : Nat) : Nat :=
  (offset + alignment - 1) &&& (0x10000000000000000 - alignment)

/-- Whether a number is a power of two. -/
def isPowerOfTwo (number : Nat) : Bool := number = Nat.pow 2 number.log2

namespace StructLayout

/-- Lays out elements behind others that end at `finish` and have the largest alignment
`alignment`. -/
def buildFrom (finish alignment : Nat) : List Element → Except Fault StructLayout
  | [] => .ok ⟨[], alignUp finish alignment, alignment⟩
  | element :: rest =>
    if isPowerOfTwo element.alignment then do
      let offset := alignUp finish element.alignment
      let tail ← buildFrom (offset + element.size) (max alignment element.alignment) rest
      return { tail with offsets := offset :: tail.offsets }
    else .error .alignmentNotPowerOfTwo

/-- Lays out elements in order from offset zero. -/
def build (elements : List Element) : Except Fault StructLayout := buildFrom 0 1 elements

/-- Lays out storage classes on a target. -/
def ofScalars (target : Target) (scalars : List Scalar) : Except Fault StructLayout :=
  build (scalars.map fun scalar => scalar.element target)

end StructLayout

end TypeRecords
