import PathFilter.CommandLine

namespace PathFilter

namespace PropertyArgument

/-- Reads `KEY=VALUE`. The key may not be empty; the value may, and may hold equals signs. -/
def read (argument : String) : Except Failure (String × String) :=
  match cutFirst? '=' argument.toList with
  | some (c :: key, value) => .ok (String.ofList (c :: key), String.ofList value)
  | _ => .error (.propertyArgument argument)

/-- Refuses the first argument that is not `KEY=VALUE`. -/
def readAll : List String → Except Failure (List (String × String))
  | [] => .ok []
  | argument :: rest => do
    let entry ← read argument
    let entries ← readAll rest
    pure (entry :: entries)

def bag (arguments : List String) : Except Failure PropertyBag :=
  (readAll arguments).map PropertyBag.ofPairs

end PropertyArgument

/-- A command that has run: what it reports, its exit code, and what it wrote to the log. -/
structure Performance where
  report : Report
  exitCode : Int
  records : List LogRecord

namespace Performance

def failureRecord (command : String) : LogRecord :=
  ⟨.debug, "treefilter.cli.runner", "Command " ++ quoted command ++ " failed"⟩

/-- A command that has failed, after these records. -/
def failed (floor : LogLevel) (command : String) (records : List LogRecord) (d : Diagnosis) :
    Performance where
  report := .failure command [] d
  exitCode := d.exitCode
  records := records ++ LogRecord.kept floor [failureRecord command]

/-- A command that is done but fails after all. -/
def undone (floor : LogLevel) (p : Performance) (d : Diagnosis) : Performance where
  report := .failure p.report.command p.report.warnings d
  exitCode := d.exitCode
  records := p.records ++ LogRecord.kept floor [failureRecord p.report.command]

end Performance

def releaseNumber : String := "0.1.0"

def performVersion (s : Surroundings) : Performance where
  report := .success "version"
    (.fields [("version", .text releaseNumber), ("pythonVersion", .text s.runtime),
      ("platform", .text s.platform)]) [] none
  exitCode := 0
  records := []

/-- What `parse` says of the segment at an index. -/
def segmentValue (index : Nat) (e : Expr) : Value :=
  .fields [("index", .int index), ("expression", .text e.text), ("kind", .text e.kind.name),
    ("matchAllBelow", .bool e.isEverythingBelow)]

def segmentValues : Nat → List Expr → List Value
  | _, [] => []
  | index, e :: es => segmentValue index e :: segmentValues (index + 1) es

def parseWarnings (filter : String) : List String :=
  match filter.toList with
  | '/' :: _ => []
  | _ => ["Filter does not start with '/'; segments are still matched from the root."]

def performParse (floor : LogLevel) (filter : String) : Performance :=
  match Filter.ofText filter with
  | .error e => .failed floor "parse" [] e.diagnosis
  | .ok f => {
      report := .success "parse"
        (.fields [("filter", .text f.text), ("segments", .list (segmentValues 0 f.segments))])
        (parseWarnings filter) (some f.text)
      exitCode := 0
      records := LogRecord.kept floor [f.acceptedRecord] }

/-- The paths on the standard input, one for each line that is not blank. -/
def stdinPaths (stdin : String) : List String := (strippedLines stdin.toList).map String.ofList

namespace MatchRequest

/-- The paths come from the standard input. -/
def readsStdin (r : MatchRequest) : Bool := r.paths.isEmpty

def candidates (r : MatchRequest) (stdin : String) : List String :=
  if r.readsStdin then stdinPaths stdin else r.paths

end MatchRequest

/-- The verdicts on paths in order, up to the first that is no path, with what the log says. -/
def verdicts (floor : LogLevel) (f : Filter) (bag : PropertyBag) :
    List String → List LogRecord × Except Failure (List (String × Bool))
  | [] => ([], .ok [])
  | path :: paths =>
    match f.selectsPath path bag with
    | .error e => ([], .error e)
    | .ok selected =>
      let (records, rest) := verdicts floor f bag paths
      (LogRecord.kept floor [f.verdictRecord path selected] ++ records,
        rest.map ((path, selected) :: ·))

/-- What `match` found: the paths with their verdicts, and how many of them are selected. -/
structure MatchSummary where
  filter : String
  verdicts : List (String × Bool)
  matchedOnly : Bool

namespace MatchSummary

def matched (m : MatchSummary) : Nat := m.verdicts.countP Prod.snd

def total (m : MatchSummary) : Nat := m.verdicts.length

def listed (m : MatchSummary) : List (String × Bool) :=
  m.verdicts.filter fun entry => entry.2 || !m.matchedOnly

def verdictValue (entry : String × Bool) : Value :=
  .fields [("path", .text entry.1), ("matched", .bool entry.2)]

def toValue (m : MatchSummary) : Value :=
  .fields [("filter", .text m.filter), ("results", .list (m.listed.map verdictValue)),
    ("matched", .int m.matched), ("total", .int m.total)]

def warnings (m : MatchSummary) : List String :=
  if m.verdicts.isEmpty then ["No paths given."] else []

def record (m : MatchSummary) : LogRecord :=
  ⟨.info, "treefilter.cli.commands.match_cmd",
    toString m.matched ++ " of " ++ toString m.total ++ " path(s) matched " ++ quoted m.filter⟩

def exitCode (m : MatchSummary) : Int := if m.matched = 0 then 1 else 0

end MatchSummary

def performMatch (floor : LogLevel) (r : MatchRequest) (stdin : String) : Performance :=
  match Filter.ofText r.filter with
  | .error e => .failed floor "match" [] e.diagnosis
  | .ok f =>
    let accepted := LogRecord.kept floor [f.acceptedRecord]
    match PropertyArgument.bag r.properties with
    | .error e => .failed floor "match" accepted e.diagnosis
    | .ok bag =>
      match verdicts floor f bag (r.candidates stdin) with
      | (records, .error e) => .failed floor "match" (accepted ++ records) e.diagnosis
      | (records, .ok found) =>
        let summary : MatchSummary := ⟨f.text, found, r.matchedOnly⟩
        { report := .success "match" summary.toValue summary.warnings (some f.text)
          exitCode := summary.exitCode
          records := accepted ++ records ++ LogRecord.kept floor [summary.record] }

/-- Runs a command with a logger of some level. -/
def perform (s : Surroundings) (floor : LogLevel) : Request → Performance
  | .version => performVersion s
  | .parse filter => performParse floor filter
  | .matching request => performMatch floor request s.stdin

end PathFilter
