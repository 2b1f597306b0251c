import PathFilter.Display
import PathFilter.Log
import PathFilter.Options

namespace PathFilter

inductive CommandName where
  | version
  | parse
  | matching
deriving DecidableEq, Repr

namespace CommandName

def text : CommandName → String
  | .version => "version"
  | .parse => "parse"
  | .matching => "match"

def all : List CommandName := [.version, .parse, .matching]

def ofText? (s : String) : Option CommandName := all.find? fun name => name.text == s

end CommandName

/-- What a path leads to when a log file is opened there. -/
inductive LogTarget where
  /-- a file of its own, which is made if it is not there -/
  | file
  | stdout
  | stderr
  /-- nothing that can be opened, by the type of the error -/
  | unavailable (type message : String)
deriving DecidableEq, Repr

/-- What surrounds a run. -/
structure Surroundings where
  environment : List (String × String)
  stdin : String
  /-- the names of the runtime and the platform -/
  runtime : String
  platform : String
  terminal : Terminal
  pathFault : String → Option PathFault
  logTarget : String → LogTarget
  /-- the help page of a command, or that of the program -/
  helpPage : Option CommandName → String
  /-- the milliseconds until a report is made, for the first report and the next -/
  duration : Nat → Nat
  /-- when each of the records in the log is made -/
  clock : Nat → Timestamp

namespace Surroundings

/-- A run that reads `stdin`, where nothing is in the way. -/
def bare (stdin : String) : Surroundings where
  environment := []
  stdin := stdin
  runtime := ""
  platform := ""
  terminal := .ofWidth 80
  pathFault := fun _ => none
  logTarget := fun _ => .file
  helpPage := fun _ => ""
  duration := fun _ => 0
  clock := fun _ => ⟨1970, 1, 1, 0, 0, 0, 0⟩

/-- A variable that is set to nothing counts as not set. -/
def valueOf? (s : Surroundings) (name : String) : Option String :=
  (s.environment.lookup name).filter (!·.isEmpty)

end Surroundings

/-- The options before the name of the command. -/
inductive GlobalOption where
  | output
  | json
  | quiet
  | verbose
  | logFile
  | version
  | help
deriving DecidableEq, Repr

/-- The options after the name of the command. -/
inductive CommandOption where
  | filter
  | property
  | matchedOnly
  | output
  | json
  | help
deriving DecidableEq, Repr

/-- A run of `match`: which paths does the filter select? -/
structure MatchRequest where
  filter : String
  /-- without paths those on the standard input are taken -/
  paths : List String
  properties : List String
  matchedOnly : Bool
deriving DecidableEq, Repr

/-- What a command is asked to do. -/
inductive Request where
  | version
  | parse (filter : String)
  | matching (request : MatchRequest)
deriving DecidableEq, Repr

/-- How a run is shown and logged, whatever the command. -/
structure RunSettings where
  format : OutputFormat
  quiet : Bool
  verbosity : Nat
  logFile : Option String
deriving DecidableEq, Repr

namespace RunSettings

def display (s : RunSettings) : DisplaySettings := ⟨s.format, s.quiet, s.verbosity⟩

def logger (s : RunSettings) : Logger := .ofRun s.verbosity s.logFile.isSome

end RunSettings

/-- Why a command line runs no command. -/
inductive Halt where
  | refused (fault : UsageFault)
  | helpPage (command : Option CommandName)
  | versionLine
deriving DecidableEq, Repr

namespace OutputFormat

def name : OutputFormat → String
  | .table => "table"
  | .json => "json"

def ofName? (s : String) : Option OutputFormat :=
  if s == "table" then some .table else if s == "json" then some .json else none

/-- Reads a value of the option `--output`, which a variable may give in its place. -/
def read (note : Option String) (s : String) : Except UsageFault OutputFormat :=
  match ofName? s with
  | some format => .ok format
  | none => .error (.badChoice "--output" note s [OutputFormat.table.name, OutputFormat.json.name])

def readOption (note : Option String) : Option String → Except UsageFault (Option OutputFormat)
  | none => .ok none
  | some s => (read note s).map some

end OutputFormat

namespace GlobalOption

def specs : List (OptionSpec GlobalOption) := [
  ⟨.output, ["--output"], true⟩,
  ⟨.json, ["--json"], false⟩,
  ⟨.quiet, ["-q", "--quiet"], false⟩,
  ⟨.verbose, ["-v"], false⟩,
  ⟨.logFile, ["--log-file"], true⟩,
  ⟨.version, ["--version"], false⟩,
  ⟨.help, ["-h", "--help"], false⟩]

def outputVariable : String := "TREEFILTER_OUTPUT"

def logFileVariable : String := "TREEFILTER_LOG_FILE"

/-- The first of the options that end the run at once. -/
def halt? (a : Arguments GlobalOption) : Option Halt :=
  a.keys.findSome? fun
    | .version => some .versionLine
    | .help => some (.helpPage none)
    | _ => none

/-- The log file that is asked for. An empty path asks for none. -/
def logPath (s : Surroundings) (a : Arguments GlobalOption) : Option String :=
  (a.last? .logFile <|> s.valueOf? logFileVariable).filter (!·.isEmpty)

/-- Refuses a path at which there can be no log file. A dash is taken as it is. -/
def checkPath (s : Surroundings) : Option String → Except UsageFault Unit
  | none => .ok ()
  | some path =>
    if path == "-" then .ok ()
    else
      match s.pathFault path with
      | none => .ok ()
      | some fault => .error (.badPath "--log-file" path fault)

/-- Of the options that may be refused for their values, one that is given comes before one that is
not, and the one that is given first before the other. -/
def logFileFirst (a : Arguments GlobalOption) : Bool :=
  (a.keys.find? fun key => key == .output || key == .logFile) == some .logFile

/-- Checks the path of the log file and reads the format that is named. -/
def checkValues (s : Surroundings) (a : Arguments GlobalOption) :
    Except UsageFault (Option OutputFormat) := do
  let format := OutputFormat.readOption (some outputVariable)
    (a.last? .output <|> s.valueOf? outputVariable)
  if logFileFirst a then
    checkPath s (logPath s a)
    format
  else
    let named ← format
    checkPath s (logPath s a)
    pure named

/-- Reads the options before the command's name; the name and all after it are left over. The flag
for JSON outdoes the format that is named. -/
def read (s : Surroundings) (arguments : List String) :
    Except Halt (RunSettings × List String) := do
  let a ← (Options.read specs false arguments).mapError .refused
  match halt? a with
  | some halt => .error halt
  | none =>
    let format ← (checkValues s a).mapError .refused
    let settings : RunSettings := {
      format := if a.has .json then .json else format.getD .table
      quiet := a.has .quiet
      verbosity := a.count .verbose
      logFile := logPath s a }
    pure (settings, a.positional)

end GlobalOption

namespace CommandOption

def common : List (OptionSpec CommandOption) := [
  ⟨.json, ["--json"], false⟩,
  ⟨.output, ["--output"], true⟩,
  ⟨.help, ["-h", "--help"], false⟩]

def specs : CommandName → List (OptionSpec CommandOption)
  | .matching => [
      ⟨.filter, ["-f", "--filter"], true⟩,
      ⟨.property, ["-p", "--property"], true⟩,
      ⟨.matchedOnly, ["--matched-only"], false⟩] ++ common
  | _ => common

def filterVariable : String := "TREEFILTER_FILTER"

/-- The format after the command's own options. They are heeded in the order in which each is
given first, and the last one heeded stands. -/
def formatAfter (a : Arguments CommandOption) (output : Option OutputFormat)
    (format : OutputFormat) : OutputFormat :=
  a.keys.foldl (fun format key =>
    match key with
    | .json => .json
    | .output => output.getD format
    | _ => format) format

def noMore : List String → Except Halt Unit
  | [] => .ok ()
  | extra => .error (.refused (.extraArguments extra))

def request (s : Surroundings) (name : CommandName) (a : Arguments CommandOption) :
    Except Halt Request :=
  match name with
  | .version => do
    noMore a.positional
    pure .version
  | .parse =>
    match a.positional with
    | [] => .error (.refused (.missingArgument "FILTER"))
    | text :: extra => do
      noMore extra
      pure (.parse text)
  | .matching =>
    match a.last? .filter <|> s.valueOf? filterVariable with
    | none => .error (.refused (.missingOption ["-f", "--filter"] (some filterVariable)))
    | some text => .ok (.matching {
        filter := text
        paths := a.positional
        properties := a.values .property
        matchedOnly := a.has .matchedOnly })

/-- Reads what follows the command's name. -/
def read (s : Surroundings) (name : CommandName) (format : OutputFormat)
    (arguments : List String) : Except Halt (OutputFormat × Request) := do
  let a ← (Options.read (specs name) true arguments).mapError .refused
  if a.has .help then .error (.helpPage (some name))
  else do
    let output ← (OutputFormat.readOption none (a.last? .output)).mapError .refused
    let request ← request s name a
    pure (formatAfter a output format, request)

end CommandOption

/-- The end of a command line that runs no command. The log file is there once the command's name
has been read. -/
structure Stop where
  halt : Halt
  logFile : Option String
deriving DecidableEq, Repr

namespace CommandLine

def noSuchCommand (word : String) : Halt :=
  .refused (.noSuchCommand word (closeNames (CommandName.all.map CommandName.text) word))

/-- A word that names no command. If it looks like an option it is taken for one first, which may
end the command line in a way of its own. -/
def unknownCommand (s : Surroundings) (word : String) (arguments : List String) : Halt :=
  if Options.isOption word then
    match GlobalOption.read s arguments with
    | .error halt => halt
    | .ok _ => noSuchCommand word
  else noSuchCommand word

/-- What a command line asks for, and how it wants the answer. -/
def read (s : Surroundings) (arguments : List String) : Except Stop (RunSettings × Request) :=
  match GlobalOption.read s arguments with
  | .error halt => .error ⟨halt, none⟩
  | .ok (_, []) => .error ⟨.helpPage none, none⟩
  | .ok (settings, word :: rest) =>
    match CommandName.ofText? word with
    | none => .error ⟨unknownCommand s word (word :: rest), none⟩
    | some name =>
      match CommandOption.read s name settings.format rest with
      | .error halt => .error ⟨halt, settings.logFile⟩
      | .ok (format, request) => .ok ({ settings with format := format }, request)

end CommandLine

end PathFilter
