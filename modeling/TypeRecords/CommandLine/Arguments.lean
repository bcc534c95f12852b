/-!
The arguments of the command line.

Owns the options and the reading of them. Options may stand before and behind the input file. A
value follows its option as the next argument, behind an equals sign, or right behind a short
option; short options without values may be joined. Behind `--` no argument is an option. A question
for the version is answered where it stands; values are looked at when all arguments are known.
-/

namespace TypeRecords.CommandLine

/-- What a run is asked to do. -/
structure Arguments where
  file : Option String
  output : Option String
  target : Option String
  listTargets : Bool
  /-- How many workers may generate records. What is generated does not depend on it. -/
  jobs : Nat
  verbose : Bool
  backtrace : Bool
deriving DecidableEq, Repr

namespace Arguments

/-- No file, and every option at its default. -/
def standard : Arguments := ⟨none, none, none, false, 1, false, false⟩

end Arguments

/-- What the arguments ask for. -/
inductive Request where
  | run (arguments : Arguments)
  | version
deriving DecidableEq, Repr

/-- An option that takes a value. -/
inductive ValueOption where
  | output
  | target
  | jobs
deriving DecidableEq, Repr

def ValueOption.name : ValueOption → String
  | .output => "-o"
  | .target => "--target"
  | .jobs => "--jobs"

/-- Why arguments make no sense. -/
inductive ArgumentError where
  | unexpected (argument : String)
  | missingValue (option : ValueOption)
  | invalidNumber (text : String)
deriving DecidableEq, Repr

def ArgumentError.message : ArgumentError → String
  | .unexpected argument => s!"unexpected argument {argument}"
  | .missingValue option => s!"option {option.name} needs a value"
  | .invalidNumber text => s!"not a number: {text}"

/-- What an option does. -/
inductive OptionKind where
  | flag (set : Arguments → Arguments)
  | value (option : ValueOption)
  | version

/-- The option of a letter. -/
def shortOption? : Char → Option OptionKind
  | 'o' => some (.value .output)
  | 't' => some (.value .target)
  | 'j' => some (.value .jobs)
  | 'v' => some (.flag fun arguments => { arguments with verbose := true })
  | 'V' => some .version
  | _ => none

/-- The option of a word. -/
def longOption? : String → Option OptionKind
  | "target" => some (.value .target)
  | "jobs" => some (.value .jobs)
  | "list-targets" => some (.flag fun arguments => { arguments with listTargets := true })
  | "verbose" => some (.flag fun arguments => { arguments with verbose := true })
  | "backtrace" => some (.flag fun arguments => { arguments with backtrace := true })
  | "version" => some .version
  | _ => none

/-- The number that decimal digits stand for. -/
def digitsValue (digits : List Char) : Nat :=
  digits.foldl (fun value digit => value * 10 + (digit.toNat - '0'.toNat)) 0

/-- The number of workers as a text gives it: decimal digits, behind a plus sign or not, of a number
that fits 64 bits. -/
def jobsOf? (text : String) : Option Nat :=
  let digits := if text.startsWith "+" then text.toList.drop 1 else text.toList
  if digits = [] ∨ digits.any (fun digit => !digit.isDigit) then none
  else if digitsValue digits < 0x10000000000000000 then some (digitsValue digits)
  else none

/-- A value behind its option, without the equals signs in front. -/
def attachedValue (characters : List Char) : String :=
  String.ofList (characters.dropWhile (· = '='))

/-- How far the reading has come. What options lack, and whether their values make sense, is asked
when all arguments are known. -/
structure Progress where
  arguments : Arguments
  /-- The number of workers as it is given. -/
  jobs : Option String
  /-- The option whose value may come next. -/
  pending : Option ValueOption
  /-- An option that has been left without a value and needs one. -/
  lacking : Option ValueOption
  versionAsked : Bool

namespace Progress

/-- Nothing read. -/
def start : Progress := ⟨.standard, none, none, none, false⟩

/-- Gives an option its value. -/
def setValue (progress : Progress) (option : ValueOption) (value : String) : Progress :=
  match option with
  | .output => { progress with arguments := { progress.arguments with output := some value } }
  | .target => { progress with arguments := { progress.arguments with target := some value } }
  | .jobs => { progress with jobs := some value }

/-- Sets the input file. There is only one. -/
def setFile (progress : Progress) (file : String) : Except ArgumentError Progress :=
  if progress.arguments.file.isSome then .error (.unexpected file)
  else .ok { progress with arguments := { progress.arguments with file := some file } }

/-- Gives up waiting for a value. The number of workers has one by default. -/
def stopWaiting (progress : Progress) : Progress :=
  match progress.pending with
  | none | some .jobs => { progress with pending := none }
  | some option => { progress with pending := none, lacking := some option }

/-- Takes in the letters of joined short options. -/
def takeLetters (argument : String) (progress : Progress) :
    List Char → Except ArgumentError Progress
  | [] => .ok progress
  | letter :: rest =>
    match shortOption? letter with
    | none => .error (.unexpected argument)
    | some .version => .ok { progress with versionAsked := true }
    | some (.flag set) =>
      takeLetters argument { progress with arguments := set progress.arguments } rest
    | some (.value option) =>
      if rest.isEmpty then .ok { progress with pending := some option }
      else .ok (progress.setValue option (attachedValue rest))

/-- Takes in a long option behind its dashes. A flag needs no value and ignores one. -/
def takeWord (argument : String) (progress : Progress) (characters : List Char) :
    Except ArgumentError Progress :=
  let word := characters.takeWhile (· ≠ '=')
  let rest := characters.dropWhile (· ≠ '=')
  match longOption? (String.ofList word) with
  | none => .error (.unexpected argument)
  | some .version => .ok { progress with versionAsked := true }
  | some (.flag set) => .ok { progress with arguments := set progress.arguments }
  | some (.value option) =>
    if rest.isEmpty then .ok { progress with pending := some option }
    else .ok (progress.setValue option (attachedValue rest))

/-- Takes in an argument that is no value of the option in front of it. A long option may stand
behind more than two dashes. -/
def takeArgument (progress : Progress) (argument : String) : Except ArgumentError Progress :=
  match argument.toList with
  | '-' :: '-' :: characters => takeWord argument progress (characters.dropWhile (· = '-'))
  | '-' :: letter :: rest => takeLetters argument progress (letter :: rest)
  | _ => progress.setFile argument

/-- What has been asked for, when all arguments are known. -/
def finish (progress : Progress) : Except ArgumentError Request :=
  let progress := progress.stopWaiting
  match progress.lacking, progress.jobs with
  | some option, _ => .error (.missingValue option)
  | none, none => .ok (.run progress.arguments)
  | none, some text =>
    match jobsOf? text with
    | some jobs => .ok (.run { progress.arguments with jobs })
    | none => .error (.invalidNumber text)

end Progress

/-- Whether an argument starts with an option. A dash alone is none. -/
def startsOption (argument : String) : Bool :=
  match argument.toList with
  | '-' :: _ :: _ => true
  | _ => false

/-- Reads arguments from the left. The version is all there is to say once it is asked for. -/
def parseFrom (progress : Progress) : List String → Except ArgumentError Request
  | [] => progress.finish
  | argument :: rest => do
    match progress.pending, startsOption argument with
    | some option, false =>
      parseFrom { progress.setValue option argument with pending := none } rest
    | _, _ =>
      let progress := progress.stopWaiting
      if argument = "--" then (← rest.foldlM Progress.setFile progress).finish
      else
        let progress ← progress.takeArgument argument
        if progress.versionAsked then return .version
        parseFrom progress rest

/-- Reads the arguments of a command line. -/
def parse (arguments : List String) : Except ArgumentError Request :=
  parseFrom .start arguments

end TypeRecords.CommandLine
