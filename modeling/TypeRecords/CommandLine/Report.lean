import TypeRecords.Diagnostic
import TypeRecords.Text.Split

/-!
Diagnostics on a terminal.

A message is a line with its severity and title, then the notes, each behind an equals sign with
its further lines indented, and a blank line. The messages to see also follow the main one.
-/

namespace TypeRecords.CommandLine

/-- Drops the carriage return at the end of a line. -/
def dropCarriageReturn (line : List Char) : List Char :=
  if line.getLast? = some '\r' then line.dropLast else line

/-- The lines of a text. A line end behind the last line starts no other. -/
def textLines (text : String) : List String :=
  let pieces := Text.splitOn '\n' text.toList
  let last := pieces.getLastD []
  let ended := pieces.dropLast.map dropCarriageReturn
  (if last.isEmpty then ended else ended ++ [last]).map String.ofList

/-- The lines of a note. -/
def noteLines (note : String) : List String :=
  match textLines note with
  | [] => []
  | first :: rest => (" = " ++ first) :: rest.map fun line => "   " ++ line

/-- A message with its severity. -/
def renderMessage (severity : String) (message : Message) : String :=
  let lines := s!"{severity}: {message.title}" :: message.notes.flatMap noteLines ++ [""]
  String.join (lines.map fun line => line ++ "\n")

/-- All that is said about a failure. -/
def renderDiagnostic (diagnostic : Diagnostic) : String :=
  renderMessage "error" diagnostic.main ++
    String.join (diagnostic.seeAlso.map (renderMessage "note"))

end TypeRecords.CommandLine
