/-!
The numbers by which classes, functions and globals refer to each other.
-/

namespace TypeRecords

/-- The number of a class. -/
structure ClassId where
  number : Nat
deriving DecidableEq, Repr, Inhabited

/-- The number of a function. -/
structure FunctionId where
  number : Nat
deriving DecidableEq, Repr, Inhabited

/-- The number of a global in its data segment. -/
structure GlobalId where
  number : Nat
deriving DecidableEq, Repr, Inhabited

/-- The class at the top of every hierarchy. Its number is fixed, so that a class can refer to it
before it is declared. -/
def ClassId.root : ClassId := ⟨0⟩

/-- Whether one class stands before another, or at the same place, by number. -/
def ClassId.atMost (left right : ClassId) : Bool := left.number ≤ right.number

def ClassId.display (id : ClassId) : String := toString id.number

def FunctionId.display (id : FunctionId) : String := "function " ++ toString id.number

def GlobalId.display (id : GlobalId) : String := "@" ++ toString id.number

/-- The least of the `used.length + 1` numbers from `start` on that is not used. One of them is
always free. -/
def leastUnused (used : List Nat) (start : Nat) : Nat :=
  ((List.range' start (used.length + 1)).find? fun number => number ∉ used).getD start

end TypeRecords
