import TypeRecords.File.Path

/-!
Places among files.

Owns what a directory may hold, and a place as a directory together with the directories around it.
Going in and out of directories, looking for a name and putting something under it all work at the
place that has been reached.
-/

namespace TypeRecords

/-- What has a name in a directory. -/
inductive FileNode where
  | file (contents : List UInt8)
  | directory (entries : List (String × FileNode))

/-- Why a file cannot be read or written. -/
inductive FileError where
  | missing
  | alreadyExists
  | notDirectory
  | isDirectory
  | nameTooLong
  | other (description : String)
deriving DecidableEq, Repr

def FileError.message : FileError → String
  | .missing => "No such file or directory (os error 2)"
  | .alreadyExists => "File exists (os error 17)"
  | .notDirectory => "Not a directory (os error 20)"
  | .isDirectory => "Is a directory (os error 21)"
  | .nameTooLong => "File name too long (os error 36)"
  | .other description => description

/-- What a directory holds, by name. -/
abbrev FileEntries := List (String × FileNode)

namespace FileEntries

/-- Puts a node under a name, in place of what has stood there. -/
def put (entries : FileEntries) (name : String) (node : FileNode) : FileEntries :=
  entries.filter (·.1 ≠ name) ++ [(name, node)]

end FileEntries

namespace FileNode

mutual

/-- The files of a node with the names that lead to them, behind those that lead to the node. -/
def files (place : List String) : FileNode → List (List String × List UInt8)
  | .file contents => [(place, contents)]
  | .directory entries => filesAmong place entries

/-- The files among the entries of a directory and below. -/
def filesAmong (place : List String) :
    List (String × FileNode) → List (List String × List UInt8)
  | [] => []
  | (name, node) :: others => files (place ++ [name]) node ++ filesAmong place others

end

end FileNode

/-- A directory that has been reached from the root. -/
structure FilePosition where
  /-- What the directories around hold, from the innermost outwards, each behind the name of the
  entry that leads inwards. -/
  around : List (String × FileEntries)
  entries : FileEntries

namespace FilePosition

/-- Names have at most so many bytes. -/
def nameLimit : Nat := 255

/-- Looks for a name in the directory. -/
def lookUp (position : FilePosition) (name : String) : Except FileError (Option FileNode) :=
  if nameLimit < name.utf8ByteSize then .error .nameTooLong
  else .ok (position.entries.lookup name)

/-- Goes one step through directories. Around the root there is nothing but the root. -/
def enter (position : FilePosition) : PathStep → Except FileError FilePosition
  | .up =>
    match position.around with
    | [] => .ok position
    | (_, entries) :: around => .ok ⟨around, entries⟩
  | .into name => do
    match ← position.lookUp name with
    | none => throw .missing
    | some (.file _) => throw .notDirectory
    | some (.directory entries) => return ⟨(name, position.entries) :: position.around, entries⟩

/-- Puts a node under a name in the directory. The result is what the root holds afterwards. -/
def put (position : FilePosition) (name : String) (node : FileNode) : FileEntries :=
  position.around.foldl
    (fun inner (name, entries) => FileEntries.put entries name (.directory inner))
    (FileEntries.put position.entries name node)

end FilePosition

end TypeRecords
