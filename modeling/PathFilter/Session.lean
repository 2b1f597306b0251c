import PathFilter.Command

namespace PathFilter

inductive Ending where
  | exited (code : Int)
  | refused (fault : UsageFault)
  /-- by an error that nothing catches -/
  | crashed (type message : String)
deriving DecidableEq, Repr

/-- A log file, by its path, with the lines written to it. -/
structure LogFile where
  path : String
  lines : List String
deriving DecidableEq, Repr

/-- All that a run of the program leaves behind. -/
structure Session where
  ending : Ending
  screen : Screen
  logFile : Option LogFile
deriving DecidableEq, Repr

namespace Session

/-- The cells before the message of a record. -/
def recordMargin : Nat := 9

/-- A record as the error stream shows it: the level in the margin, then the message. -/
def recordLines (t : Terminal) (r : LogRecord) : List (List Char) :=
  match ScreenLines.ofText .fold (t.width - recordMargin) r.message.toList with
  | [] => []
  | line :: lines =>
    (ScreenLines.pad recordMargin r.level.name.toList ++ line) ::
      lines.map (ScreenLines.pad recordMargin [] ++ ·)

def ended (line : String) : String := line ++ "\n"

section

variable (s : Surroundings) (logger : Logger) (records : List LogRecord)

/-- The lines of a log file. -/
def logLines : List String :=
  ((records.mapIdx fun i r => (r.level, r.line (s.clock i))).filter fun entry =>
    logger.sends .file entry.1).map Prod.snd

/-- What the error stream shows of the records. Where it is the log file as well, a record is shown
before its line is written. -/
def recordText (isLog : Bool) : String :=
  String.join (records.mapIdx fun i r =>
    (if logger.sends .screen r.level then Display.printed (recordLines s.terminal r) else "") ++
      if isLog && logger.sends .file r.level then ended (r.line (s.clock i)) else "")

end

/-- The log file at a path that leads to a file of its own. -/
def ownLog (s : Surroundings) (path : Option String) (lines : List String) : Option LogFile :=
  path.bind fun path => if s.logTarget path = .file then some ⟨path, lines⟩ else none

/-- What a command leaves on the screen and in the log file. The records come first. -/
def leave (s : Surroundings) (settings : RunSettings) (records : List LogRecord) (ending : Ending)
    (screen : Screen) : Session :=
  let lines := logLines s settings.logger records
  let target := settings.logFile.map s.logTarget
  let logged := if target = some .stdout then String.join (lines.map ended) else ""
  { ending := ending
    screen := ⟨logged ++ screen.stdout,
      recordText s settings.logger records (target = some .stderr) ++ screen.stderr⟩
    logFile := ownLog s settings.logFile lines }

/-- A report as it is shown, with its warnings. -/
def shown (s : Surroundings) (settings : RunSettings) (r : Report) : Except DisplayError Screen :=
  (r.display s.terminal settings.display).map fun screen =>
    ⟨screen.stdout,
      screen.stderr ++ Display.printed (r.warningLines s.terminal settings.display)⟩

/-- A command ends with its code once its report is shown. -/
def conclude (s : Surroundings) (settings : RunSettings) (p : Performance) (duration : Int)
    (otherwise : DisplayError → Session) : Session :=
  match shown s settings (p.report.after duration) with
  | .ok screen => leave s settings p.records (.exited p.exitCode) screen
  | .error e => otherwise e

def crash (s : Surroundings) (settings : RunSettings) (p : Performance) (e : DisplayError) :
    Session :=
  leave s settings p.records (.crashed e.typeName e.message) ⟨"", ""⟩

/-- The end of a command under some settings. Where its result cannot be shown it has failed after
all, and where its failure cannot be shown it crashes. -/
def present (s : Surroundings) (settings : RunSettings) (p : Performance) : Session :=
  conclude s settings p (s.duration 0) fun e =>
    if p.report.ok then
      let failed := p.undone settings.logger.level e.diagnosis
      conclude s settings failed (s.duration 1) (crash s settings failed)
    else crash s settings p e

def versionText : String := "treefilter, version " ++ releaseNumber ++ "\n"

/-- A run in which no command ran. -/
def halted (s : Surroundings) (stop : Stop) : Session :=
  let logFile := ownLog s stop.logFile []
  match stop.halt with
  | .refused fault => ⟨.refused fault, ⟨"", ""⟩, logFile⟩
  | .helpPage command => ⟨.exited 0, ⟨s.helpPage command, ""⟩, logFile⟩
  | .versionLine => ⟨.exited 0, ⟨versionText, ""⟩, logFile⟩

/-- The run goes on if its log file can be opened. -/
def opening (s : Surroundings) (logFile : Option String) (next : Session) : Session :=
  match logFile.map s.logTarget with
  | some (.unavailable type message) => ⟨.crashed type message, ⟨"", ""⟩, none⟩
  | _ => next

/-- Runs a command line. The log file is opened once the name of the command has been read. -/
def run (s : Surroundings) (arguments : List String) : Session :=
  match CommandLine.read s arguments with
  | .error stop => opening s stop.logFile (halted s stop)
  | .ok (settings, request) =>
    opening s settings.logFile (present s settings (perform s settings.logger.level request))

end Session

end PathFilter
