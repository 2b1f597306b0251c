import PathFilter.Quoted

namespace PathFilter

/-- Why a path is refused as that of a file. -/
inductive PathFault where
  | directory
  | unreadable
deriving DecidableEq, Repr

namespace PathFault

def text : PathFault → String
  | .directory => "is a directory"
  | .unreadable => "is not readable"

end PathFault

/-- Why a command line is refused before any command runs. -/
inductive UsageFault where
  /-- a name that no option has, with the names that may be meant -/
  | noSuchOption (name : String) (suggestions : List String)
  /-- a name that no command has, with the names that may be meant -/
  | noSuchCommand (name : String) (suggestions : List String)
  | optionWithoutValue (name : String)
  | flagWithValue (name : String)
  /-- a value that is none of the choices of an option, which may be set by a variable -/
  | badChoice (option : String) (variableName : Option String) (value : String)
      (choices : List String)
  | badPath (option path : String) (fault : PathFault)
  | missingArgument (name : String)
  | missingOption (names : List String) (variableName : Option String)
  | extraArguments (arguments : List String)
deriving DecidableEq, Repr

namespace UsageFault

def variableNote : Option String → String
  | none => ""
  | some name => " (env var: '" ++ name ++ "')"

def singleQuoted (s : String) : String := "'" ++ s ++ "'"

def suggestionNote : List String → String
  | [] => ""
  | [name] => " Did you mean " ++ singleQuoted name ++ "?"
  | names => " (Did you mean one of: " ++ ", ".intercalate (names.map singleQuoted) ++ "?)"

def message : UsageFault → String
  | .noSuchOption name suggestions =>
    "No such option " ++ quoted name ++ "." ++ suggestionNote suggestions
  | .noSuchCommand name suggestions =>
    "No such command " ++ quoted name ++ "." ++ suggestionNote suggestions
  | .optionWithoutValue name => "Option " ++ quoted name ++ " requires an argument."
  | .flagWithValue name => "Option " ++ quoted name ++ " does not take a value."
  | .badChoice option note value choices =>
    "Invalid value for " ++ singleQuoted option ++ variableNote note ++ ": " ++ quoted value ++
      " is not one of " ++ ", ".intercalate (choices.map singleQuoted) ++ "."
  | .badPath option path fault =>
    "Invalid value for " ++ singleQuoted option ++ ": File " ++ quoted path ++ " " ++ fault.text ++
      "."
  | .missingArgument name => "Missing argument " ++ singleQuoted name ++ "."
  | .missingOption names note =>
    "Missing option " ++ " / ".intercalate (names.map singleQuoted) ++ variableNote note ++ "."
  | .extraArguments arguments =>
    (if arguments.length == 1 then "Got unexpected extra argument ("
      else "Got unexpected extra arguments (") ++ " ".intercalate arguments ++ ")"

end UsageFault

end PathFilter
