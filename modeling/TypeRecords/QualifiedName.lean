import TypeRecords.Text.Split

/-!
Qualified names of classes, fields and functions.

A name is the list of its parts; its displayed form joins them with dots. The parts are arbitrary
texts, so distinct names may display alike.
-/

namespace TypeRecords

/-- The parts of a name from the outermost inwards. -/
structure QualifiedName where
  parts : List String
deriving DecidableEq, Repr, Inhabited

namespace QualifiedName

/-- The parts of a dotted text. Empty parts are dropped. -/
def parse (dotted : String) : QualifiedName :=
  ⟨((Text.splitOn '.' dotted.toList).filter (· ≠ [])).map String.ofList⟩

/-- A simple name inside a name space. -/
def within (space : List String) (simple : String) : QualifiedName := ⟨space ++ [simple]⟩

/-- The name of a member. -/
def child (name : QualifiedName) (simple : String) : QualifiedName := ⟨name.parts ++ [simple]⟩

/-- The last part; empty for the empty name. -/
def simpleName (name : QualifiedName) : String := name.parts.getLastD ""

/-- Everything but the last part. -/
def parentParts (name : QualifiedName) : List String := name.parts.dropLast

/-- The parts with a separator between them. -/
def join (name : QualifiedName) (separator : String) : String :=
  separator.intercalate name.parts

/-- The parts with dots between them. -/
def display (name : QualifiedName) : String := name.join "."

/-- Compares part by part, each part by its characters. -/
def compare (left right : QualifiedName) : Ordering :=
  List.compareLex Ord.compare left.parts right.parts

end QualifiedName

end TypeRecords
