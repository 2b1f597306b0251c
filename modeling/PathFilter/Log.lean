namespace PathFilter

inductive LogLevel where
  | debug
  | info
  | warning
deriving DecidableEq, Repr

namespace LogLevel

def name : LogLevel → String
  | .debug => "DEBUG"
  | .info => "INFO"
  | .warning => "WARNING"

def value : LogLevel → Nat
  | .debug => 10
  | .info => 20
  | .warning => 30

/-- What is kept at level `floor` is of that level or above. -/
def admits (floor l : LogLevel) : Bool := floor.value ≤ l.value

end LogLevel

structure LogRecord where
  level : LogLevel
  logger : String
  message : String
deriving DecidableEq, Repr

namespace LogRecord

/-- The records that a logger at some level makes. -/
def kept (floor : LogLevel) (records : List LogRecord) : List LogRecord :=
  records.filter fun r => floor.admits r.level

theorem kept_append (floor : LogLevel) (records more : List LogRecord) :
    kept floor (records ++ more) = kept floor records ++ kept floor more :=
  List.filter_append records more

theorem kept_cons (floor : LogLevel) (r : LogRecord) (records : List LogRecord) :
    kept floor (r :: records) = kept floor [r] ++ kept floor records :=
  kept_append floor [r] records

end LogRecord

/-- A time of day on a date, to the millisecond. -/
structure Timestamp where
  year : Nat
  month : Nat
  day : Nat
  hour : Nat
  minute : Nat
  second : Nat
  millisecond : Nat
deriving DecidableEq, Repr

namespace Timestamp

/-- A number with zeros before it up to `width` digits. -/
def padded (width n : Nat) : String :=
  let digits := toString n
  String.ofList (List.replicate (width - digits.length) '0') ++ digits

def text (t : Timestamp) : String :=
  padded 4 t.year ++ "-" ++ padded 2 t.month ++ "-" ++ padded 2 t.day ++ " " ++
    padded 2 t.hour ++ ":" ++ padded 2 t.minute ++ ":" ++ padded 2 t.second ++ "," ++
    padded 3 t.millisecond

end Timestamp

/-- A record as a log file holds it, but for the traceback that may follow. -/
def LogRecord.line (time : Timestamp) (r : LogRecord) : String :=
  time.text ++ " " ++ r.level.name ++ " " ++ r.logger ++ ": " ++ r.message

/-- What a logger passes its records to. -/
inductive LogSink where
  | screen
  | file
deriving DecidableEq, Repr

/-- A way to a sink, open to records of a level or above. -/
structure LogHandler where
  sink : LogSink
  level : LogLevel
deriving DecidableEq, Repr

namespace LogHandler

/-- The error stream shows more the more often that is asked for. -/
def screen (verbosity : Nat) : LogHandler where
  sink := .screen
  level :=
    match verbosity with
    | 0 => .warning
    | 1 => .info
    | _ => .debug

/-- A log file takes all records. -/
def file : LogHandler := ⟨.file, .debug⟩

end LogHandler

/-- A logger with its handlers. -/
structure Logger where
  first : LogHandler
  others : List LogHandler
deriving DecidableEq, Repr

namespace Logger

/-- The logger of a run, with a log file or without. -/
def ofRun (verbosity : Nat) (hasFile : Bool) : Logger :=
  ⟨.screen verbosity, if hasFile then [.file] else []⟩

def handlers (logger : Logger) : List LogHandler := logger.first :: logger.others

/-- The lower of two levels. -/
def lower (l m : LogLevel) : LogLevel := if l.value ≤ m.value then l else m

/-- A logger makes the records that one of its handlers lets through. -/
def level (logger : Logger) : LogLevel :=
  logger.others.foldl (fun l handler => lower l handler.level) logger.first.level

/-- Whether records of a level get to a sink. -/
def sends (logger : Logger) (sink : LogSink) (l : LogLevel) : Bool :=
  logger.handlers.any fun handler => handler.sink == sink && handler.level.admits l

end Logger

end PathFilter
