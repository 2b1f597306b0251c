import PathFilter.ExprText
import PathFilter.Property

namespace PathFilter

/-- An expression that has no truth value where it stands. -/
inductive EvalError where
  | unsupportedSegment (kind : ExprKind)
  | unsupportedProperty (kind : ExprKind)
  /-- a negation of nothing -/
  | missingOperand
  /-- a negation of two operands or more -/
  | extraOperands
deriving DecidableEq, Repr

namespace EvalError

def message : EvalError → String
  | .unsupportedSegment kind => "Unsupported segment expression: " ++ kind.name
  | .unsupportedProperty kind => "Unsupported property expression: " ++ kind.name
  | .missingOperand => "not enough values to unpack (expected 1, got 0)"
  | .extraOperands => "too many values to unpack (expected 1)"

end EvalError

namespace Expr

mutual

/-- Whether the filter inside a bracket holds of a node's pairs. Operands are taken from left to
right, and none after the one that decides. -/
def holds (pairs : List (String × String)) : Expr → Except EvalError Bool
  | .property k v =>
    .ok (pairs.any fun entry => k.accepts entry.1.toList && v.accepts entry.2.toList)
  | .value m => .ok (pairs.any fun entry => m.accepts entry.1.toList)
  | .apply .or es => anyHolds pairs es
  | .apply .and es => allHold pairs es
  | .apply .not [] => .error .missingOperand
  | .apply .not [e] => do
    let b ← holds pairs e
    pure !b
  | .apply .not (_ :: _ :: _) => .error .extraOperands
  | .always => .ok true
  | .node _ _ => .error (.unsupportedProperty .node)
  | .foreign f => .error (.unsupportedProperty (.foreign f.name))

def anyHolds (pairs : List (String × String)) : List Expr → Except EvalError Bool
  | [] => .ok false
  | e :: es => do
    if ← holds pairs e then pure true else anyHolds pairs es

def allHold (pairs : List (String × String)) : List Expr → Except EvalError Bool
  | [] => .ok true
  | e :: es => do
    if ← holds pairs e then allHold pairs es else pure false

end

mutual

/-- Whether an expression selects a segment of a path. The properties are looked at only when the
value before the bracket fits. -/
def selects (pairs : List (String × String)) (segment : List Char) : Expr → Except EvalError Bool
  | .value m => .ok (m.accepts segment)
  | .apply .or es => anySelects pairs segment es
  | .apply .and es => allSelect pairs segment es
  | .apply .not [] => .error .missingOperand
  | .apply .not [e] => do
    let b ← selects pairs segment e
    pure !b
  | .apply .not (_ :: _ :: _) => .error .extraOperands
  | .node v e => if v.accepts segment then holds pairs e else .ok false
  | .always => .ok true
  | .property _ _ => .error (.unsupportedSegment .property)
  | .foreign f => .error (.unsupportedSegment (.foreign f.name))

def anySelects (pairs : List (String × String)) (segment : List Char) :
    List Expr → Except EvalError Bool
  | [] => .ok false
  | e :: es => do
    if ← selects pairs segment e then pure true else anySelects pairs segment es

def allSelect (pairs : List (String × String)) (segment : List Char) :
    List Expr → Except EvalError Bool
  | [] => .ok true
  | e :: es => do
    if ← selects pairs segment e then allSelect pairs segment es else pure false

end

end Expr

end PathFilter
