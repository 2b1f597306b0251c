import PathFilter.Diagnosis

namespace PathFilter

/-- What a command has to say when it is done. -/
structure Report where
  ok : Bool
  command : String
  data : Value
  warnings : List String
  /-- milliseconds -/
  duration : Int
  filter : Option String
  error : Option ErrorInfo

namespace ErrorInfo

def toValue (e : ErrorInfo) : Value :=
  .fields [("type", .text e.type), ("message", .text e.message), ("hint", .ofOption e.hint),
    ("details", e.details.getD .null)]

end ErrorInfo

namespace Report

def success (command : String) (data : Value) (warnings : List String) (filter : Option String) :
    Report where
  ok := true
  command := command
  data := data
  warnings := warnings
  duration := 0
  filter := filter
  error := none

def failure (command : String) (warnings : List String) (d : Diagnosis) : Report where
  ok := false
  command := command
  data := .null
  warnings := warnings
  duration := 0
  filter := none
  error := some d.info

/-- The report with the time that it took. -/
def after (duration : Int) (r : Report) : Report := { r with duration := duration }

def toValue (r : Report) : Value :=
  .fields [
    ("ok", .bool r.ok),
    ("command", .text r.command),
    ("data", r.data),
    ("warnings", .list (r.warnings.map .text)),
    ("meta", .fields [("durationMs", .int r.duration), ("filter", .ofOption r.filter)]),
    ("error", (r.error.map ErrorInfo.toValue).getD .null)]

end Report

end PathFilter
