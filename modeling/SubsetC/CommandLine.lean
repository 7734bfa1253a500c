import SubsetC.Compilation
import SubsetC.FileSystem

/-!
# Command line

The command takes flags and at most one file. It compiles the file through the stage a flag names,
and writes what that stage makes beside it: always if the stage is the last one, and otherwise if
asked to debug. Flags and files may come in any order.
-/

namespace SubsetC

namespace CommandLine

/-! ### Flags -/

/-- The flags, all of which are on or off. -/
inductive Flag where
  /-- Stop after a stage. -/
  | stop (stage : Stage)
  /-- Show what the last stage makes, and write it to a file. -/
  | debug
  /-- Tell about progress. -/
  | verbose
  /-- Show how to use the command. -/
  | help
  | version
  deriving DecidableEq, Repr

namespace Flag

def name : Flag → Text
  | .stop stage => stage.text
  | .debug => "debug"
  | .verbose => "verbose"
  | .help => "help"
  | .version => "version"

def all : List Flag := Stage.all.map .stop ++ [.debug, .verbose, .help, .version]

def ofName? (name : Text) : Option Flag := all.find? fun flag => flag.name = name

def ofLetter? (letter : UInt8) : Option Flag :=
  if letter = Text.ofAscii 'S' then some (.stop .emit)
  else if letter = Text.ofAscii 'h' then some .help
  else if letter = Text.ofAscii 'v' then some .version
  else none

/-- Whether the name of a flag may also be given after a single dash. -/
def hasSingleDash : Flag → Bool
  | .stop .emit | .help | .version => false
  | _ => true

end Flag

/-- The value a text gives a flag. -/
def value? (text : Text) : Option Bool :=
  if (["1", "t", "T", "TRUE", "true", "True"].map Text.ofString).contains text then some true
  else if (["0", "f", "F", "FALSE", "false", "False"].map Text.ofString).contains text then
    some false
  else none

/-- What a command line asks for. -/
structure Request where
  flags : List Flag
  files : List Text
  deriving DecidableEq, Repr

namespace Request

/-- Nothing asked for yet. -/
def empty : Request := ⟨[], []⟩

def set (request : Request) (flag : Flag) (value : Bool) : Request :=
  let others := request.flags.filter (· ≠ flag)
  { request with flags := if value then flag :: others else others }

def addFile (request : Request) (file : Text) : Request :=
  { request with files := request.files ++ [file] }

def has (request : Request) (flag : Flag) : Bool := request.flags.contains flag

end Request

/-! ### Reading a command line -/

/-- The byte that separates a flag from its value. -/
def equals : UInt8 := Text.ofAscii '='

/-- Reads a flag by name, with a value if there is an equals sign. -/
def readName (request : Request) (text : Text) : Option Request := do
  let flag ← Flag.ofName? (text.takeWhile (· ≠ equals))
  match text.dropWhile (· ≠ equals) with
  | [] => some (request.set flag true)
  | _ :: value => do some (request.set flag (← value? value))

/-- Reads flags by letter. An equals sign with something after it gives the last of them its
value. Letters that start like a flag of a test runner are passed over. -/
def readLetters (request : Request) : Text → Option Request
  | [] => some request
  | letter :: rest =>
    if (Text.ofString "test.").isPrefixOf (letter :: rest) then some request
    else do
      let flag ← Flag.ofLetter? letter
      match rest with
      | sign :: first :: value =>
        if sign = equals then some (request.set flag (← value? (first :: value)))
        else readLetters (request.set flag true) rest
      | _ => readLetters (request.set flag true) rest

/-- The byte flags start with. -/
def dash : UInt8 := Text.ofAscii '-'

/-- Reads arguments in order. Two dashes end the flags, and a single dash is a file. -/
def readArguments (request : Request) : List Text → Option Request
  | [] => some request
  | argument :: arguments =>
    match argument with
    | first :: second :: rest =>
      if first ≠ dash then readArguments (request.addFile argument) arguments
      else if second ≠ dash then do
        readArguments (← readLetters request (second :: rest)) arguments
      else if rest.isEmpty then
        some { request with files := request.files ++ arguments }
      else do
        readArguments (← readName request rest) arguments
    | _ => readArguments (request.addFile argument) arguments

/-- The argument with a second dash if it is the name of a flag after a single one. -/
def doubleDash (argument : Text) : Text :=
  if Flag.all.any fun flag => flag.hasSingleDash && argument = dash :: flag.name then
    dash :: argument
  else argument

/-- Reads a command line; there is nothing to do for one that is wrong. -/
def read? (arguments : List Text) : Option Request :=
  readArguments .empty (arguments.map doubleDash)

/-! ### Running a command -/

/-- What a command shows. -/
structure Outcome where
  succeeds : Bool
  /-- What it writes to standard output. -/
  output : Text
  /-- What it writes to standard error. -/
  errors : Text
  deriving DecidableEq, Repr

namespace Outcome

/-- A success that shows a text. -/
def showing (output : Text) : Outcome := ⟨true, output, []⟩

/-- A failure that shows nothing. -/
def silent : Outcome := ⟨false, [], []⟩

def status (outcome : Outcome) : Nat := if outcome.succeeds then 0 else 1

end Outcome

def command : Text := "tacky-cc"

def versionText : Text := command ++ " version 0.1.0\n"

def helpText : Text :=
  "tacky-cc is a compiler for a C subset. It parses, validates and
lowers a translation unit to the TACKY three-address IR, then to a thin
assembly IR. Each stage can be stopped after and dumped.

Usage:
  tacky-cc [file] [flags]

Flags:
      --codegen    Stop after assembly generation
      --debug      Print the last stage's artifact and write it next to the input
  -S, --emit       Write the assembly IR to a .s file
  -h, --help       help for tacky-cc
      --lex        Stop after lexing
      --parse      Stop after parsing
      --tacky      Stop after lowering to TACKY
      --validate   Stop after semantic analysis
      --verbose    Log stage progress
  -v, --version    version for tacky-cc
"

def message (text : Text) : Text := command ++ ": " ++ text ++ "\n"

/-- The message for more than one stage to stop after. -/
def conflictText : Text :=
  message "at most one of --lex, --parse, --validate, --tacky, --codegen, -S may be given"

/-- The name of the lock file in the directory of what is written. -/
def lockFile : Text := ".tacky-cc.lock"

/-- The path to which what a stage makes of a file is written. -/
def artifactPath (file : Text) (stage : Stage) : Text :=
  Path.stem file ++ if stage = .emit then Text.ofString ".s" else "." ++ stage.text

/-- The message for a failure to compile a file. What is not the fault of the file has no place in
it. -/
def failureText (file : Text) (failure : Failure) : Text :=
  match failure with
  | .user _ _ => message (file ++ ":" ++ failure.diagnostic.text)
  | _ => message (file ++ ": " ++ failure.diagnostic.text)

/-- The message for a failure to write to a path. -/
def replaceText (path : Text) : ReplaceError → Text
  | .lock error => message ("acquire lock for " ++ path ++ ": " ++ error.text)
  | .write error => message ("write " ++ path ++ ": " ++ error.text)

/-- The progress report on a stage. -/
def doneText (stage : Stage) : Text := stage.text ++ " done"

/-- How a file is compiled. -/
structure Options where
  stop : Stage
  /-- Whether to show what it makes. -/
  debug : Bool
  /-- Whether to tell about progress. -/
  verbose : Bool
  deriving DecidableEq, Repr

namespace Options

/-- Messages that are only for those who want to know about progress. -/
def progress (options : Options) (texts : List Text) : Text :=
  if options.verbose then texts.flatMap message else []

/-- Whether what the last stage makes is written to a file. -/
def writes (options : Options) : Bool := options.debug || options.stop = .emit

variable {m : Type → Type} [Monad m]

/-- Writes what a compilation made of a file, given the messages before. -/
def store (access : FileAccess m) (options : Options) (file content errors : Text) :
    m Outcome := do
  let output : Text := if options.debug then content else []
  if !options.writes then pure ⟨true, output, errors⟩
  else
    let path := artifactPath file options.stop
    match ← access.replace (Path.beside path lockFile) path content with
    | .ok () => pure ⟨true, output, errors ++ options.progress ["wrote " ++ path]⟩
    | .error error => pure ⟨false, output, errors ++ replaceText path error⟩

/-- Compiles a file. -/
def compile (access : FileAccess m) (options : Options) (file : Text) : m Outcome := do
  match ← access.read file with
  | .error error => pure ⟨false, [], message ("read " ++ file ++ ": " ++ error.text)⟩
  | .ok source =>
    let compilation := SubsetC.compile options.stop source
    let errors := options.progress (("compiling " ++ file) :: compilation.stages.map doneText)
    match compilation.outcome with
    | .error failure => pure ⟨false, [], errors ++ failureText file failure⟩
    | .ok product => options.store access file product.artifact.text errors

end Options

variable {m : Type → Type} [Monad m]

/-- Does what a request asks for. -/
def Request.run (access : FileAccess m) (request : Request) : m Outcome :=
  if request.has .help then pure (.showing helpText)
  else if request.has .version then pure (.showing versionText)
  else
    match request.files with
    | [] => pure (.showing helpText)
    | [file] =>
      let debug := request.has .debug
      let verbose := request.has .verbose
      match Stage.all.filter fun stage => request.has (.stop stage) with
      | [] => Options.compile access ⟨.emit, debug, verbose⟩ file
      | [stage] => Options.compile access ⟨stage, debug, verbose⟩ file
      | _ => pure ⟨false, [], conflictText⟩
    | _ => pure .silent

/-- Runs the command with arguments. -/
def run (access : FileAccess m) (arguments : List Text) : m Outcome :=
  match read? arguments with
  | none => pure .silent
  | some request => request.run access

end CommandLine

end SubsetC
