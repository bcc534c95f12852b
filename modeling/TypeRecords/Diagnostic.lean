/-!
What is reported to the user about a failure.

Owns the message (a title with notes), its order, and the diagnostic: the one-line text of a
failure, its main message and the messages to see also.
-/

namespace TypeRecords

/-- A title with explaining notes. -/
structure Message where
  title : String
  notes : List String
deriving DecidableEq, Repr, Inhabited

namespace Message

/-- Orders by title, then by the notes one after the other. -/
def compare (left right : Message) : Ordering :=
  (Ord.compare left.title right.title).then
    (List.compareLex Ord.compare left.notes right.notes)

/-- Sorts messages; equal ones keep their order. -/
def sort (messages : List Message) : List Message :=
  messages.mergeSort fun left right => (compare left right).isLE

end Message

/-- Everything said about one failure. -/
structure Diagnostic where
  text : String
  main : Message
  seeAlso : List Message
deriving DecidableEq, Repr, Inhabited

/-- A failure whose text is also its title. -/
def Diagnostic.plain (text : String) (notes : List String) : Diagnostic :=
  ⟨text, ⟨text, notes⟩, []⟩

end TypeRecords
