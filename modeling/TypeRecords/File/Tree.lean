import TypeRecords.File.Position

/-!
Files in directories.

Owns a tree of files with a working directory in it, and what happens when a file is read or written
by its path. Writing makes the directories the file is to stand in. Paths without a slash in front
start at the working directory; others, and steps out of it, lead to its surroundings.
-/

namespace TypeRecords

/-- All files and directories, by what the root holds. -/
structure FileTree where
  root : FileEntries

namespace FileTree

/-- The steps from the root to the working directory. What it is called is not known; the empty
name, which no path can spell, stands for that. -/
def workingDirectory : List PathStep := [.into "tmp", .into ""]

/-- The tree with nothing in the working directory, and around it what every machine has. -/
def empty : FileTree :=
  let ordinary := ["bin", "boot", "etc", "home", "lib", "media", "mnt", "opt", "proc", "root",
    "run", "sbin", "srv", "sys", "usr", "var"]
  ⟨ordinary.map (fun name => (name, .directory [])) ++
    [("dev", .directory [("null", .file [])]), ("tmp", .directory [("", .directory [])])]⟩

/-- Paths have at most so many bytes. -/
def pathLimit : Nat := 4095

/-- The directory at the end of some steps. -/
def walk (tree : FileTree) (steps : List PathStep) : Except FileError FilePosition :=
  steps.foldlM FilePosition.enter ⟨[], tree.root⟩

/-- Where a path leads. -/
inductive Destination where
  /-- To a directory that is there. -/
  | directory
  /-- To a name in a directory. -/
  | entry (position : FilePosition) (name : String)

/-- Follows a path up to its last step. -/
def follow (tree : FileTree) (path : String) : Except FileError Destination := do
  if path.isEmpty then throw .missing
  if pathLimit < path.utf8ByteSize then throw .nameTooLong
  let start := if Path.isAbsolute path then [] else workingDirectory
  let steps := Path.steps path
  match steps.getLast? with
  | some (.into name) => return .entry (← tree.walk (start ++ steps.dropLast)) name
  | _ =>
    let _ ← tree.walk (start ++ steps)
    return .directory

/-- The contents of a file. -/
def read (tree : FileTree) (path : String) : Except FileError (List UInt8) := do
  match ← tree.follow path with
  | .directory => throw .isDirectory
  | .entry position name =>
    match ← position.lookUp name with
    | none => throw .missing
    | some (.directory _) => throw .isDirectory
    | some (.file contents) =>
      if Path.ending path = .plain then return contents else throw .notDirectory

/-- Makes a directory, or accepts one that is there. -/
def ensureDirectory (tree : FileTree) (path : String) : Except FileError FileTree := do
  match ← tree.follow path with
  | .directory => return tree
  | .entry position name =>
    match ← position.lookUp name with
    | some (.directory _) => return tree
    | some (.file _) => throw .alreadyExists
    | none => return ⟨position.put name (.directory [])⟩

/-- Makes a directory and those around it as far as they are missing. Their paths are given from
the innermost outwards. -/
def ensureDirectories (tree : FileTree) : List String → Except FileError FileTree
  | [] => .ok tree
  | path :: outer =>
    match tree.ensureDirectory path with
    | .error .missing => do (← tree.ensureDirectories outer).ensureDirectory path
    | ensured => ensured

/-- Creates a file or replaces its contents. -/
def create (tree : FileTree) (path : String) (contents : List UInt8) :
    Except FileError FileTree := do
  match ← tree.follow path, Path.ending path with
  | .directory, _ | .entry _ _, .slash => throw .isDirectory
  | .entry position name, ending =>
    match ← position.lookUp name, ending with
    | some (.directory _), _ => throw .isDirectory
    | none, .here => throw .missing
    | some (.file _), .here => throw .notDirectory
    | _, _ => return ⟨position.put name (.file contents)⟩

/-- Writes a file, and makes the directories it is to stand in. -/
def write (tree : FileTree) (path : String) (contents : List UInt8) :
    Except FileError FileTree := do
  let tree ← tree.ensureDirectories (Path.directories path)
  tree.create path contents

/-- The tree of some files, in whatever directories their paths mention. -/
def ofFiles (files : List (String × List UInt8)) : FileTree :=
  files.foldl
    (fun tree file => (tree.write file.1 file.2).toOption.getD tree)
    empty

/-- The files below the working directory with their paths from there. -/
def files (tree : FileTree) : List (String × List UInt8) :=
  match tree.walk workingDirectory with
  | .error _ => []
  | .ok position =>
    (FileNode.filesAmong [] position.entries).map fun (place, contents) =>
      ("/".intercalate place, contents)

end FileTree

end TypeRecords
