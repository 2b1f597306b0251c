import PathFilter.Json
import PathFilter.Report
import PathFilter.Terminal

namespace PathFilter

inductive OutputFormat where
  | table
  | json
deriving DecidableEq, Repr

/-- How reports are shown. -/
structure DisplaySettings where
  format : OutputFormat
  quiet : Bool
  verbosity : Nat
deriving DecidableEq, Repr

/-- Text for the two output streams. -/
structure Screen where
  stdout : String
  stderr : String
deriving DecidableEq, Repr

/-- Why a report cannot be shown. -/
inductive DisplayError where
  /-- the output has no code for a text, and says why -/
  | unencodable (reason : String)
  | markup (e : MarkupError)
  /-- a cell that is neither a text nor empty, by its type -/
  | unshownCell (type : String)
  /-- a value of some type in place of a list of rows -/
  | noRows (type : String)
  /-- a value of some type in place of a row -/
  | noFields (type : String)
deriving DecidableEq, Repr

namespace DisplayError

def message : DisplayError → String
  | .unencodable reason => reason
  | .markup e => e.message
  | .unshownCell type =>
    "unable to render " ++ type ++ "; a string or other renderable object is required"
  | .noRows type => "'" ++ type ++ "' object is not iterable"
  | .noFields type => "'" ++ type ++ "' object has no attribute 'get'"

/-- The type of error by which a report that cannot be shown is reported. -/
def typeName : DisplayError → String
  | .unencodable _ => "UnicodeEncodeError"
  | .markup _ => "MarkupError"
  | .unshownCell _ => "NotRenderableError"
  | .noRows _ => "TypeError"
  | .noFields _ => "AttributeError"

def diagnosis (e : DisplayError) : Diagnosis := .other e.typeName e.message

end DisplayError

namespace Display

variable (t : Terminal)

/-- A text on the lines of a screen. -/
def textLines (s : String) : List (List Char) := ScreenLines.ofText .fold t.width s.toList

/-- Lines as a screen shows them, without the blanks that end them. -/
def printed (lines : List (List Char)) : String :=
  String.ofList (lines.flatMap fun line => dropEndWhile (· == ' ') line ++ ['\n'])

/-- A text with tags and emoji codes as it is shown. -/
def unmarked (s : String) : Except DisplayError (List Char) :=
  (withoutMarkup t.words s.toList).mapError .markup

def markedLines (s : String) : Except DisplayError (List (List Char)) :=
  (unmarked t s).map (ScreenLines.ofText .fold t.width)

def title (type : String) : String :=
  let type := String.ofList (strip type.toList)
  if type == "usage_error" then "Usage error"
  else if type == "filter_syntax_error" then "Filter syntax error"
  else if type == "filter_validation_error" then "Invalid filter"
  else if type == "invalid_path" then "Invalid node path"
  else "Error"

/-- A hint with some text in it, or for usage errors the way to the help page. -/
def hintLines (command : String) (e : ErrorInfo) : Except DisplayError (List (List Char)) :=
  match e.hint.filter (!·.isEmpty) with
  | some hint => .ok (textLines t ("Hint: " ++ hint))
  | none =>
    if e.type == "usage_error" then markedLines t ("Hint: run `treefilter " ++ command ++ " --help`")
    else .ok []

def detailLines (settings : DisplaySettings) (e : ErrorInfo) : List (List Char) :=
  match e.details with
  | some details =>
    if details.holds && 1 ≤ settings.verbosity then
      Grid.panel (t.box .rounded) t.width (Json.indented 0 details).toList
    else []
  | none => []

def errorLines (settings : DisplaySettings) (command : String) :
    Option ErrorInfo → Except DisplayError (List (List Char))
  | none => .ok (textLines t "Error")
  | some e => do
    let hints ← if settings.quiet then pure [] else hintLines t command e
    let details := if settings.quiet then [] else detailLines t settings e
    pure (textLines t (title e.type ++ ": " ++ e.message) ++ hints ++ details)

def fieldText (v : Value) (name missing : String) : String :=
  match v.field? name with
  | some v => v.shown
  | none => missing

/-- The rows in a field. A text has its characters for rows, and a set of fields their names. -/
def rowsOf (v : Value) (name : String) : Except DisplayError (List Value) :=
  match v.field? name with
  | none => .ok []
  | some (.list items) => .ok items
  | some (.text s) => .ok (s.toList.map fun c => .text (String.singleton c))
  | some (.fields entries) => .ok (entries.map fun entry => .text entry.1)
  | some v => .error (.noRows v.typeName)

/-- The text of a cell, where nothing is an empty text. -/
def cellText : Value → Except DisplayError String
  | .text s => .ok s
  | .null => .ok ""
  | v => .error (.unshownCell v.typeName)

/-- A row of the table of segments. The index and the kind may hold markup. -/
structure SegmentRow where
  index : String
  expression : String
  kind : String

def segmentRow (row : Value) : Except DisplayError SegmentRow :=
  match row with
  | .fields _ => do
    let kind ← cellText ((row.field? "kind").getD (.text ""))
    pure ⟨fieldText row "index" "", fieldText row "expression" "", kind⟩
  | v => .error (.noFields v.typeName)

/-- All rows are read before markup is, and markup is read column by column. -/
def segmentTable (data : Value) : Except DisplayError (List (List Char)) := do
  let values ← rowsOf data "segments"
  let rows ← values.mapM segmentRow
  let indices ← rows.mapM fun row => unmarked t row.index
  let kinds ← rows.mapM fun row => unmarked t row.kind
  pure (Grid.table (t.box .heavyHead) t.width [⟨"#", true⟩, ⟨"segment", false⟩, ⟨"kind", false⟩]
    ((rows.zip (indices.zip kinds)).map fun entry =>
      [entry.2.1, entry.1.expression.toList, entry.2.2]))

def verdictRow (row : Value) : Except DisplayError (List (List Char)) :=
  match row with
  | .fields _ =>
    let verdict := if (row.field? "matched").any Value.holds then "yes" else "no"
    .ok [(fieldText row "path" "").toList, verdict.toList]
  | v => .error (.noFields v.typeName)

def verdictTable (data : Value) : Except DisplayError (List (List Char)) := do
  let rows ←
    if (data.field? "results").any Value.holds then do
      let values ← rowsOf data "results"
      values.mapM verdictRow
    else pure [["No paths".toList, []]]
  pure (Grid.table (t.box .heavyHead) t.width [⟨"path", false⟩, ⟨"matched", false⟩] rows)

def resultLines (r : Report) : Except DisplayError (List (List Char)) :=
  if r.command == "version" then .ok (textLines t (fieldText r.data "version" ""))
  else if r.command == "parse" then segmentTable t r.data
  else if r.command == "match" then verdictTable t r.data
  else .ok (textLines t (Json.indented 0 r.data))

def summaryLines (settings : DisplaySettings) (r : Report) :
    Except DisplayError (List (List Char)) :=
  if r.command == "match" && !settings.quiet then
    markedLines t
      (fieldText r.data "matched" "0" ++ " of " ++ fieldText r.data "total" "0" ++
        " path(s) matched")
  else .ok []

end Display

namespace Report

variable (t : Terminal) (settings : DisplaySettings)

/-- What is added to the reason when a table cannot be written. -/
def encodingNote : String :=
  "\n*** You may need to add PYTHONIOENCODING=utf-8 to your environment ***"

/-- The report on one line of JSON, or as tables and messages for a reader. -/
def display (r : Report) : Except DisplayError Screen :=
  match settings.format with
  | .json =>
    let line := Json.line r.toValue ++ "\n"
    match t.refusal line with
    | some reason => .error (.unencodable reason)
    | none => .ok ⟨line, ""⟩
  | .table =>
    if r.ok then do
      let result ← Display.resultLines t r
      match t.refusal (Display.printed result) with
      | some reason => .error (.unencodable (reason ++ encodingNote))
      | none =>
        let summary ← Display.summaryLines t settings r
        pure ⟨Display.printed result, Display.printed summary⟩
    else do
      let lines ← Display.errorLines t settings r.command r.error
      pure ⟨"", Display.printed lines⟩

/-- The warnings of a report for a reader. -/
def warningLines (r : Report) : List (List Char) :=
  if settings.format = .json ∨ settings.quiet = true then []
  else r.warnings.flatMap fun warning => Display.textLines t ("Warning: " ++ warning)

end Report

end PathFilter
