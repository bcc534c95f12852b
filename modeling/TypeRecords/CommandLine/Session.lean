import TypeRecords.CSource.SourceUnit
import TypeRecords.Class.Stored
import TypeRecords.CommandLine.Arguments
import TypeRecords.CommandLine.Report
import TypeRecords.File.Tree
import TypeRecords.Record.Module
import TypeRecords.Segment.Listing
import TypeRecords.Segment.Stored
import TypeRecords.Target.Host

/-!
A run of the program.

Owns what the program does for its arguments, as a tree of interactions with the files around it:
it reads the classes from one file, generates their type records, and writes them to another file
or to standard output. `Interaction.runOn` plays an interaction on a tree of files.
-/

namespace TypeRecords.CommandLine

/-- What is left of a run when it is over. -/
structure Outcome where
  exitCode : UInt8
  /-- The text on standard output. -/
  output : String
  /-- The text on standard error. -/
  errors : String
deriving DecidableEq, Repr

/-- A run as it goes on from some point. -/
inductive Interaction where
  | finish (outcome : Outcome)
  | read (path : String) (next : Except FileError (List UInt8) → Interaction)
  /-- Writes a file and the directories around it. -/
  | write (path : String) (contents : List UInt8) (next : Except FileError Unit → Interaction)

/-- Plays an interaction on a tree of files. -/
def Interaction.runOn : Interaction → FileTree → Outcome × FileTree
  | .finish outcome, tree => (outcome, tree)
  | .read path next, tree => (next (tree.read path)).runOn tree
  | .write path contents next, tree =>
    match tree.write path contents with
    | .ok written => (next (.ok ())).runOn written
    | .error error => (next (.error error)).runOn tree

/-- Why a run fails. -/
inductive CommandError where
  | target (error : TargetError)
  | record (error : RecordError)
  | noInputFile
  | unknownInputFormat (path : String)
  | readFailed (path reason : String)
  | outputFailed (destination : String) (error : FileError)
deriving DecidableEq, Repr

/-- What is said about a failed run. -/
def CommandError.diagnostic : CommandError → Diagnostic
  | .target error => error.diagnostic
  | .record error => error.diagnostic
  | .noInputFile => .plain "no input file" []
  | .unknownInputFormat path =>
    .plain s!"unrecognized input file format: {path}"
      ["class descriptors are read from .json or .lib files"]
  | .readFailed path reason =>
    .plain s!"failed to read class descriptors from {path}: {reason}" []
  | .outputFailed destination error =>
    .plain s!"writing output to `{destination}` failed: {error.message}" []

namespace Interaction

/-- Ends a run that has gone well. -/
def succeed (output : String) : Interaction := .finish ⟨0, output, ""⟩

/-- Ends a run with an error. -/
def fail (error : CommandError) : Interaction :=
  .finish ⟨1, "", renderDiagnostic error.diagnostic⟩

/-- Ends a run that a fault cuts short. -/
def abort (fault : Fault) : Interaction := .finish ⟨101, "", fault.message ++ "\n"⟩

/-- Writes the output file and ends the run. -/
def writeOutput (path : String) (contents : List UInt8) : Interaction :=
  .write path contents fun
    | .ok () => succeed ""
    | .error error => fail (.outputFailed path error)

end Interaction

/-- How the classes are stored in an input file. -/
inductive InputFormat where
  | json
  | binary
deriving DecidableEq, Repr

/-- The format of a file by its extension. -/
def InputFormat.ofPath? (path : String) : Option InputFormat :=
  if Path.hasExtension path "json" then some .json
  else if Path.hasExtension path "lib" then some .binary
  else none

/-- The classes in a file of some format. -/
def InputFormat.load (format : InputFormat) (contents : List UInt8) :
    Except Wire.LoadError Catalog :=
  match format with
  | .json => Wire.Storable.ofJson Catalog contents
  | .binary => Wire.Storable.ofBinary Catalog contents

/-- How the type records are written. -/
inductive OutputFormat where
  | cSource
  | binary
  | listing
deriving DecidableEq, Repr

/-- The format of a file by its extension. -/
def OutputFormat.ofPath (path : String) : OutputFormat :=
  if Path.hasExtension path "c" then .cSource
  else if Path.hasExtension path "lib" then .binary
  else .listing

/-- The contents of an output file. -/
def OutputFormat.contents (format : OutputFormat) (segment : Segment) (catalog : Catalog)
    (target : Target) : Except Fault (List UInt8) :=
  match format with
  | .cSource =>
    (CSource.SourceUnit.ofSegment segment catalog
      ⟨target.stripsUnreferencedSymbols, true⟩).display.map Text.utf8
  | .binary => .ok (Wire.Storable.toBinary segment)
  | .listing => .ok (Text.utf8 (segment.listing (some catalog)))

/-- Writes the type records where they are wanted. -/
def writeRecords (segment : Segment) (catalog : Catalog) (target : Target) :
    Option String → Interaction
  | none => .succeed (segment.listing (some catalog))
  | some path =>
    match (OutputFormat.ofPath path).contents segment catalog target with
    | .ok contents => .writeOutput path contents
    | .error fault => .abort fault

/-- Generates the type records of the classes and writes them. -/
def generate (catalog : Catalog) (target : Target) (output : Option String) : Interaction :=
  match generateModule catalog target with
  | .ok assembly => writeRecords assembly.segment catalog target output
  | .error (.reported error) => .fail (.record error)
  | .error (.fault fault) => .abort fault

/-- Reads the input file and goes on from there. -/
def loadInput (path : String) (next : Catalog → Interaction) : Interaction :=
  match InputFormat.ofPath? path with
  | none => .fail (.unknownInputFormat path)
  | some format =>
    .read path fun
      | .error error => .fail (.readFailed path error.message)
      | .ok contents =>
        match format.load contents with
        | .error error =>
          match error.fault? with
          | some fault => .abort fault
          | none => .fail (.readFailed path error.message)
        | .ok catalog => next catalog

/-- Does what the arguments ask for. The target is settled first. -/
def execute (host : Target) (arguments : Arguments) : Interaction :=
  match TargetSelection.choose host arguments.target with
  | .error error => .fail (.target error)
  | .ok selection =>
    if arguments.listTargets then
      match selection.list with
      | .error error => .fail (.target error)
      | .ok lines => .succeed (String.join (lines.map fun line => line ++ "\n"))
    else
      match arguments.file with
      | none => .fail .noInputFile
      | some file =>
        loadInput file fun catalog => generate catalog selection.target arguments.output

/-- The line that answers a question for the version. -/
def versionLine : String := "rttigen 0.1.0\n"

/-- A run on a host. -/
def session (host : Target) (arguments : List String) : Interaction :=
  match parse arguments with
  | .error error => .finish ⟨1, "", s!"error: {error.message}\n"⟩
  | .ok .version => .succeed versionLine
  | .ok (.run arguments) => execute host arguments

end TypeRecords.CommandLine
