import Bhasha.Repl

/-!
# The command line

The arguments are read from left to right.  They name a file to run, or else
the prompt is started; options ask for a listing of the tokens, for another
limit on the depth of calls, or for the version.  The first thing that is wrong
makes the whole command line unusable, but the version is shown at once.
-/

namespace Bhasha

open Text

/-! ## Numbers -/

/-- The value of a text of ASCII digits. -/
def readDigits? (digits : List Char) : Option Nat :=
  if digits.isEmpty || !digits.all Char.isDigit then
    none
  else
    some (digits.foldl
      (fun value digit => 10 * value + (digit.toNat - '0'.toNat)) 0)

/-- The first value that does not fit into 64 bits. -/
def depthBound : Nat :=
  0x10000000000000000

/-- A number of 64 bits in decimal, with or without a plus sign. -/
def readDepth? (text : String) : Option Nat :=
  let digits := match text.toList with
    | '+' :: rest => rest
    | characters => characters
  (readDigits? digits).filter (· < depthBound)

/-! ## Arguments -/

/-- What the arguments read so far ask for. -/
structure Arguments where
  file : Option String := none
  listTokens : Bool := false
  maxDepth : Option Nat := none

/-- What a command line asks for. -/
inductive Invocation where
  /-- The command line cannot be used. -/
  | usage
  /-- Show the version. -/
  | version
  /-- Run a file. -/
  | file (path : String) (listTokens : Bool) (config : Config)
  /-- Start the prompt. -/
  | prompt (config : Config)
deriving DecidableEq

namespace Arguments

/-- Take the name of a file; there may be one, and it is not empty. -/
def addFile (arguments : Arguments) (path : String) : Option Arguments :=
  if path.isEmpty || arguments.file.isSome then
    none
  else
    some { arguments with file := some path }

/-- Take the limit on the depth of calls, which is given once at most. -/
def addDepth (arguments : Arguments) (text : String) : Option Arguments := do
  if arguments.maxDepth.isSome then
    none
  else
    return { arguments with maxDepth := some (← readDepth? text) }

/-- Take the request for a token listing, which is given once at most. -/
def addTokens (arguments : Arguments) : Option Arguments :=
  if arguments.listTokens then
    none
  else
    some { arguments with listTokens := true }

/-- What the arguments ask for in the end; the variable gives a default. -/
def finish (arguments : Arguments) (variableDepth : Option String) :
    Invocation :=
  let depth := match arguments.maxDepth, variableDepth with
    | some depth, _ => some ⟨depth⟩
    | none, some text => (readDepth? text).map Config.mk
    | none, none => some {}
  match depth, arguments.file with
  | none, _ => .usage
  | some config, some path => .file path arguments.listTokens config
  | some config, none => .prompt config

/-- Read arguments of which none is an option. -/
def readFiles (arguments : Arguments) (variableDepth : Option String) :
    List String → Invocation
  | [] => arguments.finish variableDepth
  | path :: rest =>
    match arguments.addFile path with
    | some arguments => arguments.readFiles variableDepth rest
    | none => .usage

/-- Whether an argument is written as an option. -/
def isOption (argument : String) : Bool :=
  match argument.toList with
  | '-' :: _ :: _ => true
  | _ => false

/-- Whether an argument asks for the version. -/
def isVersion (argument : String) : Bool :=
  argument = "--version" || "-V".toList.isPrefixOf argument.toList

/-- The limit in an argument that gives it after an equals sign. -/
def depthValue? (argument : String) : Option String :=
  ("--max-depth=".toList.isPrefixOf? argument.toList).map String.ofList

/-- Read arguments and options from left to right. -/
def read (arguments : Arguments) (variableDepth : Option String) :
    List String → Invocation
  | [] => arguments.finish variableDepth
  | "--" :: rest => arguments.readFiles variableDepth rest
  | "--tokens" :: rest =>
    match arguments.addTokens with
    | some arguments => arguments.read variableDepth rest
    | none => .usage
  | ["--max-depth"] => .usage
  | "--max-depth" :: text :: rest =>
    if isOption text then
      .usage
    else
      match arguments.addDepth text with
      | some arguments => arguments.read variableDepth rest
      | none => .usage
  | argument :: rest =>
    if isVersion argument then
      .version
    else
      match depthValue? argument with
      | some text =>
        match arguments.addDepth text with
        | some arguments => arguments.read variableDepth rest
        | none => .usage
      | none =>
        if isOption argument then
          .usage
        else
          match arguments.addFile argument with
          | some arguments => arguments.read variableDepth rest
          | none => .usage

end Arguments

/-- What a command line and the variable for the depth ask for. -/
def Invocation.ofArguments (arguments : List String)
    (variableDepth : Option String) : Invocation :=
  Arguments.read {} variableDepth arguments

/-! ## Running -/

/-- The exit code of the program and what it wrote. -/
structure ProgramReport where
  exitCode : UInt8
  standardOutput : ByteArray
  standardError : String

/-- The line that shows the version. -/
def versionLine : String :=
  "nepali 0.1.0\n"

/-- The line that tells how the program is called. -/
def usageLine : String :=
  "Usage: nepali [--tokens] [--max-depth <MAX_DEPTH>] [FILE]\n"

namespace ProgramReport

/-- The report on a file that was run or could not be read. -/
def ofFile (coloring : Coloring) (path : String) :
    Except ReadError RunReport → ProgramReport
  | .ok report =>
    ⟨if report.ending.isSuccess then 0 else 1, report.standardOutput,
      report.standardError⟩
  | .error error =>
    ⟨1, .empty,
      errorLabel coloring ++ " " ++ error.message path ++ "\n"⟩

end ProgramReport

/--
Do what is asked for, given what each path holds and the text of the standard
input.
-/
def Invocation.run (invocation : Invocation) (coloring : Coloring)
    (files : String → Except ReadError ByteArray) (input : String) :
    ProgramReport :=
  match invocation with
  | .usage => ⟨2, .empty, usageLine⟩
  | .version => ⟨0, versionLine.toUTF8, ""⟩
  | .file path listTokens config =>
    ProgramReport.ofFile coloring path
      (RunSettings.runFile ⟨listTokens, config, coloring⟩ (files path))
  | .prompt config => ⟨0, Repl.transcript config coloring input, ""⟩

end Bhasha
