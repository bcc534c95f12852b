import TypeRecords.Target

/-!
File names of build products.
-/

namespace TypeRecords

/-- The kinds of build products. -/
inductive OutputKind where
  | program
  | dynamic
  | framework
  | library
  | bitcode
deriving DecidableEq, Repr

namespace OutputKind

/-- What follows the base name. -/
def suffix (kind : OutputKind) (target : Target) : String :=
  match kind with
  | .program => "." ++ target.family.programExtension
  | .dynamic => "." ++ target.family.dynamicExtension
  | .framework => ".framework"
  | .library => ".lib"
  | .bitcode => ".bc"

/-- What stands in front of the base name. -/
def leading (kind : OutputKind) (target : Target) : String :=
  match kind with
  | .dynamic => target.family.dynamicPrefix
  | _ => ""

def fileName (kind : OutputKind) (target : Target) (base : String) : String :=
  kind.leading target ++ base ++ kind.suffix target

end OutputKind

end TypeRecords
