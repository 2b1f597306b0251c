import PathFilter.Proofs.MatchRun
import PathFilter.Proofs.PlainText

namespace PathFilter

namespace Timestamp

end Timestamp

/-- What the log of a run of `match` can say. -/
inductive MatchEvent where
  | parsed (segments : Nat)
  | decided (path : String) (selected : Bool)
  | counted (matched total : Nat)
  | failed

namespace MatchEvent

/-- How the log says so of a filter. -/
def record (filter : String) : MatchEvent → LogRecord
  | .parsed segments =>
    ⟨.debug, "treefilter.filter",
      "Parsed filter " ++ quoted filter ++ " into " ++ toString segments ++ " segment(s)"⟩
  | .decided path selected =>
    ⟨.debug, "treefilter.filter",
      "Filter " ++ quoted filter ++ (if selected then " matched " else " rejected ") ++ quoted path⟩
  | .counted matched total =>
    ⟨.info, "treefilter.cli.commands.match_cmd",
      toString matched ++ " of " ++ toString total ++ " path(s) matched " ++ quoted filter⟩
  | .failed => ⟨.debug, "treefilter.cli.runner", "Command 'match' failed"⟩

/-- How a log file says so at some time, with level, logger and message. -/
def line (filter : String) (time : Timestamp) : MatchEvent → String
  | .parsed segments =>
    time.text ++ " DEBUG treefilter.filter: Parsed filter " ++ quoted filter ++ " into " ++
      toString segments ++ " segment(s)"
  | .decided path selected =>
    time.text ++ " DEBUG treefilter.filter: Filter " ++ quoted filter ++
      (if selected then " matched " else " rejected ") ++ quoted path
  | .counted matched total =>
    time.text ++ " INFO treefilter.cli.commands.match_cmd: " ++ toString matched ++ " of " ++
      toString total ++ " path(s) matched " ++ quoted filter
  | .failed => time.text ++ " DEBUG treefilter.cli.runner: Command 'match' failed"

variable (filter : String) (time : Timestamp) (event : MatchEvent)

end MatchEvent

end PathFilter
