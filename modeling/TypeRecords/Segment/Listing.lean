import TypeRecords.Class.Catalog
import TypeRecords.Segment.Basic
import TypeRecords.Text.Blank

/-!
The text listing of a data segment.

Each global has a line: what it is, its number and name, its type, and its initial value. A last
line names the globals to be kept.
-/

namespace TypeRecords

/-- Names globals as the segment does, and functions as the catalog does where one is given. -/
def Segment.referenceNames (segment : Segment) (catalog : Option Catalog) : ReferenceNames where
  ofGlobal id :=
    match segment.get? id with
    | some global => global.name
    | none => ReferenceNames.numbers.ofGlobal id
  ofFunction id :=
    match catalog.bind fun catalog => catalog.functionName? id with
    | some name => name.display
    | none => ReferenceNames.numbers.ofFunction id

/-- What a global is called in a listing. -/
def Global.keyword (global : Global) : String :=
  match global.linkage, global.constant with
  | .exported, _ => "export"
  | .internal, true => "const"
  | .internal, false => "var"

/-- The line of a global. -/
def Global.listingLine (names : ReferenceNames) (id : GlobalId) (global : Global) : String :=
  let head :=
    s!"{Text.padLeft 8 global.keyword} {id.display} {global.name}: {global.type.display}"
  match global.initial with
  | some initial => head ++ " = " ++ initial.write names
  | none => head ++ " (extern)"

namespace Segment

/-- The lines of a listing. -/
def listingLines (segment : Segment) (catalog : Option Catalog) : List String :=
  let names := segment.referenceNames catalog
  let globals := segment.numbered.map fun (id, global) => global.listingLine names id
  if segment.used.isEmpty then globals
  else
    let kept := ", ".intercalate (segment.used.map names.ofGlobal)
    globals ++ [Text.padLeft 8 "used" ++ " " ++ kept]

/-- The listing as one text, every line with its end. -/
def listing (segment : Segment) (catalog : Option Catalog) : String :=
  String.join ((segment.listingLines catalog).map fun line => line ++ "\n")

end Segment

end TypeRecords
