import PathFilter.Log
import PathFilter.Parsing
import PathFilter.PathWalk
import PathFilter.Validation

namespace PathFilter

/-- Why an operation on filters gives no answer. -/
inductive Failure where
  | malformedFilter (e : SyntaxError)
  | invalidFilter (e : ValidationError)
  /-- an argument that must be a text but has another type -/
  | notText (argument type : String)
  | properties (e : PropertyError)
  | matching (e : MatchError)
  /-- a property argument of the command line that is not `KEY=VALUE` -/
  | propertyArgument (argument : String)
deriving DecidableEq

namespace Failure

def message : Failure → String
  | .malformedFilter e => e.message
  | .invalidFilter e => e.message
  | .notText argument type => argument ++ " must be a str, got " ++ type
  | .properties e => e.message
  | .matching e => e.message
  | .propertyArgument argument =>
    "Invalid property " ++ quoted argument ++ ": expected KEY=VALUE."

end Failure

/-- The checked segments of a filter. -/
def parseFilter (text : String) : Except Failure (List Expr) := do
  let segments ← (readSegments text.toList).mapError .malformedFilter
  (validateSegments segments).mapError .invalidFilter
  pure segments

def parseFilterValue : Value → Except Failure (List Expr)
  | .text s => parseFilter s
  | v => .error (.notText "filter" v.typeName)

/-- A filter: a text and the segments that it spells. No filter exists for a text that is refused. -/
structure Filter where
  text : String
  segments : List Expr
  parsed : parseFilter text = .ok segments

namespace Filter

def ofText (text : String) : Except Failure Filter :=
  match parsed : parseFilter text with
  | .error e => .error e
  | .ok segments => .ok ⟨text, segments, parsed⟩

def ofValue : Value → Except Failure Filter
  | .text s => ofText s
  | v => .error (.notText "filter" v.typeName)

/-- Two filters are the same when their texts are. -/
def same (f g : Filter) : Bool := f.text == g.text

def describe (f : Filter) : String := "TreeNodeFilter(" ++ quoted f.text ++ ")"

def selectsPath (f : Filter) (path : String) (bag : PropertyBag) : Except Failure Bool :=
  (matchPath f.segments path bag).mapError .matching

/-- Whether the filter selects a node. The path must be a text, then the properties must be
properties, and then the path must start at the root. -/
def selects (f : Filter) (path : Value) (properties : PropertySource) : Except Failure Bool :=
  match path with
  | .text path => do
    let bag ← (PropertyBag.ofSource properties).mapError .properties
    f.selectsPath path bag
  | v => .error (.notText "path" v.typeName)

def loggerName : String := "treefilter.filter"

/-- What the log says once a filter is accepted. -/
def acceptedRecord (f : Filter) : LogRecord :=
  ⟨.debug, loggerName,
    "Parsed filter " ++ quoted f.text ++ " into " ++ toString f.segments.length ++ " segment(s)"⟩

/-- What the log says of the verdict on a path. -/
def verdictRecord (f : Filter) (path : String) (selected : Bool) : LogRecord :=
  ⟨.debug, loggerName,
    "Filter " ++ quoted f.text ++ (if selected then " matched " else " rejected ") ++ quoted path⟩

theorem ofText_of_parsed {text : String} {segments : List Expr}
    (h : parseFilter text = .ok segments) : ofText text = .ok ⟨text, segments, h⟩ := by
  unfold ofText
  split
  next e he => rw [h] at he; cases he
  next found hf =>
    obtain rfl := Except.ok.inj (h.symm.trans hf)
    rfl

theorem ofText_of_refused {text : String} {e : Failure} (h : parseFilter text = .error e) :
    ofText text = .error e := by
  unfold ofText
  split
  next e' he =>
    obtain rfl := Except.error.inj (h.symm.trans he)
    rfl
  next found hf => rw [h] at hf; cases hf

end Filter

end PathFilter
