import TypeRecords.Class.Dispatch
import TypeRecords.Record.Error

/-!
The body of an object.

Owns the layout of an instance: the object header, then the fields of every class from the root
down in order of declaration. The built-in types of variable length have a negative instance size,
the size of one element.
-/

namespace TypeRecords

/-- Where the fields of a class stand in its instances. Sizes and offsets are stored in 32 bits. -/
structure InstanceLayout where
  /-- Negative for built-in types of variable length. -/
  size : Int32
  /-- The fields the class declares itself, in order of declaration. -/
  fieldOffsets : List Int32
  /-- All fields the collector must follow, in layout order. -/
  tracedOffsets : List Int32
deriving DecidableEq, Repr, Inhabited

/-- The built-in types of variable length with their element sizes. No size is that of an object
reference. -/
def variableLengthTypes : List (String × Option Int32) :=
  [("system.Array", none), ("system.ByteArray", some 1), ("system.CharArray", some 2),
    ("system.ShortArray", some 2), ("system.IntArray", some 4), ("system.LongArray", some 8),
    ("system.FloatArray", some 4), ("system.DoubleArray", some 8),
    ("system.BooleanArray", some 1), ("system.String", some 2),
    ("system.ImmutableBlob", some 1)]

/-- The instance size of a built-in type of variable length. -/
def variableLengthSize? (name : QualifiedName) (target : Target) : Option Int32 :=
  (variableLengthTypes.find? fun entry => entry.1 = name.display).map fun entry =>
    -(entry.2.getD (Int32.ofNat target.pointerSize))

namespace Catalog

/-- All fields of an instance, from the root class down. -/
def instanceFields (catalog : Catalog) (id : ClassId) :
    Except Fault (List FieldDefinition) := do
  let hierarchy ← catalog.hierarchy id
  let fields ← hierarchy.mapM fun ancestor => do
    let definition ← catalog.definition ancestor
    return definition.fields
  return fields.flatten

/-- An interface declares no fields. -/
def checkInterfaceFields (definition : ClassDefinition) : Except Failure Unit :=
  match definition.isInterface, definition.fields with
  | true, field :: _ =>
    .error (.reported (.interfaceWithField definition.name field.name))
  | _, _ => .ok ()

/-- The layout of the instances of a class. -/
def instanceLayout (catalog : Catalog) (target : Target) (id : ClassId) :
    Except Failure InstanceLayout := do
  let definition ← catalog.definition id
  checkInterfaceFields definition
  let fields ← catalog.instanceFields id
  let header : Element := ⟨target.headerSize, target.pointerSize⟩
  let body ← StructLayout.build
    (header :: fields.map fun field => field.type.scalar.element target)
  let offsets := (body.offsets.drop 1).map Int32.ofNat
  let traced := (offsets.zip fields).filterMap fun (offset, field) =>
    if field.type.isManagedReference then some offset else none
  return {
    size := (variableLengthSize? definition.name target).getD (Int32.ofNat body.size)
    fieldOffsets := offsets.drop (offsets.length - definition.fields.length)
    tracedOffsets := traced }

end Catalog

end TypeRecords
