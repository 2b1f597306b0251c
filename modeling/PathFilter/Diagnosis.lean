import PathFilter.Filter

namespace PathFilter

/-- What a report says of a failure. -/
structure ErrorInfo where
  type : String
  message : String
  hint : Option String
  details : Option Value

/-- A failure by the kinds that reports and exit codes tell apart. -/
inductive Diagnosis where
  | malformedFilter (message : String) (pos : Option Int)
  | invalidFilter (message : String) (fragment : Option String)
  | invalidPath (message : String)
  /-- a failure of the filter library of no particular kind -/
  | library (message : String)
  /-- a failure of a command, which brings its own exit code -/
  | command (message : String) (exitCode : Int) (type : String) (details : Option Value)
  /-- anything else, by the name of its type -/
  | other (type message : String)

namespace Diagnosis

/-- Arguments that the command line admits and the command cannot use. -/
def usage (message : String) (details : Option Value) : Diagnosis :=
  .command message 2 "usage_error" details

def text : Diagnosis → String
  | .malformedFilter message pos => withPosition message pos
  | .invalidFilter message _ => message
  | .invalidPath message => message
  | .library message => message
  | .command message _ _ _ => message
  | .other _ message => message

def isLibraryError : Diagnosis → Bool
  | .malformedFilter _ _ => true
  | .invalidFilter _ _ => true
  | .invalidPath _ => true
  | .library _ => true
  | _ => false

/-- Callers that ask only whether their input was bad see every failure of the library as such. -/
def isBadInput (d : Diagnosis) : Bool :=
  match d with
  | .other type _ => type == "ValueError"
  | d => d.isLibraryError

def exitCode (d : Diagnosis) : Int :=
  match d with
  | .command _ code _ _ => code
  | d => if d.isLibraryError then 2 else 1

def escapeHint : String :=
  "Escape literal special characters with a backslash, e.g. \\( or \\["

def info : Diagnosis → ErrorInfo
  | .malformedFilter message pos => {
      type := "filter_syntax_error"
      message := withPosition message pos
      hint := some escapeHint
      details := pos.map fun n => .fields [("position", .int n)] }
  | .invalidFilter message fragment => {
      type := "filter_validation_error"
      message := message
      hint := none
      details := fragment.map fun s => .fields [("fragment", .text s)] }
  | .invalidPath message => ⟨"invalid_path", message, none, none⟩
  | .library message => ⟨"TreeFilterError", message, none, none⟩
  | .command message _ type details => ⟨type, message, none, details⟩
  | .other type message => ⟨type, message, none, none⟩

end Diagnosis

namespace EvalError

/-- The type of error by which an expression without a truth value is reported. -/
def typeName : EvalError → String
  | .unsupportedSegment _ => "TypeError"
  | .unsupportedProperty _ => "TypeError"
  | .missingOperand => "ValueError"
  | .extraOperands => "ValueError"

end EvalError

namespace Failure

def diagnosis (f : Failure) : Diagnosis :=
  match f with
  | .malformedFilter e => .malformedFilter e.fault.message (e.pos.map Int.ofNat)
  | .invalidFilter e => .invalidFilter e.message e.fragment
  | .notText _ _ => .other "TypeError" f.message
  | .properties e => .other "TypeError" e.message
  | .matching (.invalidPath _) => .invalidPath f.message
  | .matching (.evaluation e) => .other e.typeName e.message
  | .propertyArgument argument =>
    .usage f.message (some (.fields [("property", .text argument)]))

end Failure

end PathFilter
