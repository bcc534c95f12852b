import TypeRecords.Text.Split

/-!
Paths of files.

Owns the reading of a path: where it starts, the steps it takes through directories, what its end
demands, the directories it goes through, and the extension of the file it names. Empty steps and
steps to the same directory lead nowhere and are left out.
-/

namespace TypeRecords

/-- One step through directories. -/
inductive PathStep where
  /-- To the directory around. -/
  | up
  | into (name : String)
deriving DecidableEq, Repr

/-- What the end of a path says about the thing it names. -/
inductive PathEnding where
  | plain
  /-- A slash: the thing must be a directory. -/
  | slash
  /-- A step to the same directory: the thing must be a directory, and exist. -/
  | here
deriving DecidableEq, Repr

namespace Path

/-- Whether a path starts at the root of all directories. -/
def isAbsolute (path : String) : Bool := path.toList.head? = some '/'

/-- The pieces between the slashes of a path, without empty ones. -/
def pieces (path : String) : List String :=
  ((Text.splitOn '/' path.toList).filter (· ≠ [])).map String.ofList

/-- The steps of a path. -/
def steps (path : String) : List PathStep :=
  ((pieces path).filter (· ≠ ".")).map fun piece =>
    if piece = ".." then .up else .into piece

def ending (path : String) : PathEnding :=
  if (pieces path).getLast? = some "." then .here
  else if path.toList.getLast? = some '/' then .slash
  else .plain

/-- A path without its last step, without the last two, and so on, all as they are written; the
path itself is in front. The pieces are given from the last one backwards. -/
def shortenings : List (List Char) → List String
  | [] => []
  | [[]] => ["/"]
  | [first] => [String.ofList first]
  | piece :: outer =>
    if piece = [] ∨ piece = ['.'] then shortenings outer
    else
      String.ofList (['/'].intercalate (outer.reverse ++ [piece])) :: shortenings outer

/-- The paths of the directories that a path mentions in front of its last step, from the last one
backwards. -/
def directories (path : String) : List String :=
  (shortenings (Text.splitOn '/' path.toList).reverse).drop 1

/-- What follows the last dot of a name. A dot at the front starts no extension. -/
def nameExtension (name : String) : String :=
  match Text.splitOn '.' name.toList with
  | [] | [_] | [[], _] => ""
  | parts => String.ofList (parts.getLastD [])

/-- The extension of the file a path names; empty where there is none. -/
def extension (path : String) : String :=
  match (steps path).getLast? with
  | some (.into name) => nameExtension name
  | _ => ""

/-- Whether a path has an extension, in capital or small letters. -/
def hasExtension (path wanted : String) : Bool := (extension path).toLower = wanted

end Path

end TypeRecords
