import PathFilter.Session

namespace PathFilter

namespace Timestamp

/-- The date of a day that is counted from 1 March of the year 0, as year, month and day. -/
def dateOf (day : Nat) : Nat × Nat × Nat :=
  let era := day / 146097
  let dayOfEra := day % 146097
  let yearOfEra :=
    (dayOfEra - dayOfEra / 1460 + dayOfEra / 36524 - dayOfEra / 146096) / 365
  let dayOfYear := dayOfEra - (365 * yearOfEra + yearOfEra / 4 - yearOfEra / 100)
  let shifted := (5 * dayOfYear + 2) / 153
  let month := if shifted < 10 then shifted + 3 else shifted - 9
  (era * 400 + yearOfEra + (if month ≤ 2 then 1 else 0), month,
    dayOfYear - (153 * shifted + 2) / 5 + 1)

/-- The time that is some milliseconds after the start of 1970. -/
def ofMilliseconds (n : Nat) : Timestamp :=
  let seconds := n / 1000
  let (year, month, day) := dateOf (seconds / 86400 + 719468)
  ⟨year, month, day, seconds / 3600 % 24, seconds / 60 % 60, seconds % 60, n % 1000⟩

end Timestamp

/-- The directory part of a path, if it has one. -/
def directoryOf (path : String) : Option String :=
  match path.toList.reverse.dropWhile (· != '/') with
  | [] => none
  | ['/'] => none
  | _ :: rest => some (String.ofList rest.reverse)

/-- Opens a log file, which is made if it is not there. -/
def openLog (path : String) : IO IO.FS.Handle := do
  if let some directory := directoryOf path then
    IO.FS.createDirAll directory
  IO.FS.Handle.mk path .append

def targetOf (path : String) : IO LogTarget := do
  try
    let _ ← openLog path
    pure .file
  catch e => pure (.unavailable "OSError" (toString e))

def pathFaultOf (path : String) : IO (Option PathFault) := do
  try
    let found ← IO.FS.realPath path
    pure (if ← found.isDir then some .directory else none)
  catch _ => pure none

/-- Appends the lines of a run to its log file. -/
def writeLog (file : LogFile) : IO Unit := do
  let handle ← openLog file.path
  for line in file.lines do
    handle.putStrLn line

/-- The time of the clock, which a new file is marked with. -/
def now : IO Timestamp := do
  let (_, path) ← IO.FS.createTempFile
  let made := (← path.metadata).modified
  IO.FS.removeFile path
  pure (.ofMilliseconds (made.sec.toNat * 1000 + made.nsec.toNat / 1000000))

def readVariables (names : List String) : IO (List (String × String)) := do
  let mut found := []
  for name in names do
    if let some value ← IO.getEnv name then
      found := found ++ [(name, value)]
  pure found

def usageLine (command : Option CommandName) : String :=
  "Usage: treefilter " ++ (command.map (CommandName.text · ++ " ")).getD "" ++ "[OPTIONS]\n"

/-- What can be known before the command line is read. -/
def outset : IO Surroundings := do
  let environment ← readVariables
    [GlobalOption.outputVariable, GlobalOption.logFileVariable, CommandOption.filterVariable]
  let columns ← IO.getEnv "COLUMNS"
  let time ← now
  pure { Surroundings.bare "" with
    environment := environment
    runtime := "unknown"
    platform := "unknown"
    terminal := .ofWidth ((columns.bind String.toNat?).getD 80)
    helpPage := usageLine
    clock := fun _ => time }

/-- The log file is opened only when the run gets to it, and the standard input is read only by a
command that asks for it. -/
def gather (arguments : List String) : IO Surroundings := do
  let mut around ← outset
  if let .ok a := Options.read GlobalOption.specs false arguments then
    if let some path := GlobalOption.logPath around a then
      let fault ← pathFaultOf path
      around := { around with pathFault := fun _ => fault }
  let read := CommandLine.read around arguments
  let log :=
    match read with
    | .ok (settings, _) => settings.logFile
    | .error stop => stop.logFile
  if let some path := log then
    let target ← targetOf path
    around := { around with logTarget := fun _ => target }
  if let .ok (_, .matching request) := read then
    if request.readsStdin then
      let input ← IO.getStdin
      around := { around with stdin := ← input.readToEnd }
  pure around

end PathFilter

open PathFilter in
def main (arguments : List String) : IO UInt32 := do
  let started ← IO.monoMsNow
  let around ← gather arguments
  let taken := (← IO.monoMsNow) - started
  let session := Session.run { around with duration := fun _ => taken } arguments
  if let some file := session.logFile then
    writeLog file
  IO.print session.screen.stdout
  IO.eprint session.screen.stderr
  match session.ending with
  | .exited code => pure (UInt32.ofNat code.toNat)
  | .refused fault =>
    IO.eprintln ("Error: " ++ fault.message)
    pure 2
  | .crashed type message =>
    IO.eprintln (type ++ ": " ++ message)
    pure 1
