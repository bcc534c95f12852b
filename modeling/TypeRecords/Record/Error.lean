import TypeRecords.Class.Graph
import TypeRecords.NameHash

/-!
Why type records cannot be generated.

Owns the errors a described class can have beyond the class graph, and the two ways an operation
on records fails: by such an error, or by a fault of the caller.
-/

namespace TypeRecords

/-- A defect found while type records are generated. -/
inductive RecordError where
  | invalidGraph (error : GraphError)
  /-- Two distinct members of one class share a hash. -/
  | duplicateHash (className : QualifiedName) (name : String) (hash : NameHash)
      (first second : String)
  | overrideOutsideInterface (interface : QualifiedName) (method : String)
  | notAnInterface (className : QualifiedName)
  | missingEntryPoint (method : String)
  | interfaceWithField (interface : QualifiedName) (field : String)
  | unknownMethod (method : String)
  | duplicateExport (className : QualifiedName) (symbol : String)
deriving DecidableEq, Repr

namespace RecordError

def message : RecordError → String
  | .invalidGraph error => error.message
  | .duplicateHash className name hash first second =>
    s!"duplicate method table entry in {className.display}: name = '{name}', " ++
      s!"hash = {hash.display}, entry1 = {first}, entry2 = {second}"
  | .overrideOutsideInterface interface method =>
    s!"{method} is not declared on interface {interface.display}"
  | .notAnInterface className => s!"{className.display} is not an interface"
  | .missingEntryPoint method => s!"non-abstract method {method} has no entry point"
  | .interfaceWithField interface field =>
    s!"interface {interface.display} declares field {field}"
  | .unknownMethod method => s!"{method} does not exist"
  | .duplicateExport className symbol =>
    s!"type info of {className.display} exported as {symbol}, which is already defined"

def title : RecordError → String
  | .invalidGraph error => error.title
  | .duplicateHash .. => "Method name hash collision"
  | .overrideOutsideInterface .. => "Invalid interface override"
  | .notAnInterface _ => "Not an interface"
  | .missingEntryPoint _ => "Missing entry point"
  | .interfaceWithField .. => "Interface with fields"
  | .unknownMethod _ => "Unknown method"
  | .duplicateExport .. => "Duplicate exported symbol"

/-- Apart from errors of the class graph, the one note is the message. -/
def notes : RecordError → List String
  | .invalidGraph error => error.notes
  | error => [error.message]

def seeAlso : RecordError → List Message
  | .duplicateHash _ _ _ first second =>
    [⟨"first entry: " ++ first, []⟩, ⟨"second entry: " ++ second, []⟩]
  | _ => []

def diagnostic (error : RecordError) : Diagnostic :=
  ⟨error.message, ⟨error.title, error.notes⟩, error.seeAlso⟩

end RecordError

/-- How an operation on records fails. -/
inductive Failure where
  | reported (error : RecordError)
  | fault (fault : Fault)
deriving DecidableEq, Repr

instance : MonadLift (Except Fault) (Except Failure) where
  monadLift result := result.mapError .fault

instance : MonadLift (Except GraphError) (Except Failure) where
  monadLift result := result.mapError fun error => .reported (.invalidGraph error)

end TypeRecords
