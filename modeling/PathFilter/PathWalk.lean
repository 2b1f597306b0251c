import PathFilter.Cut
import PathFilter.Evaluation

namespace PathFilter

/-- The parts of a path between its separators. -/
def pathParts (t : List Char) : List (List Char) := cutAt (· == '/') t

inductive MatchError where
  | invalidPath (path : String)
  | evaluation (e : EvalError)
deriving DecidableEq, Repr

namespace MatchError

def message : MatchError → String
  | .invalidPath path =>
    "Invalid node path " ++ quoted path ++ ", expected root as first character '/'"
  | .evaluation e => e.message

end MatchError

/-- The last segment is `**`, which also selects all below the nodes that it selects. -/
def reachesBelow (segments : List Expr) : Bool :=
  segments.getLast?.any Expr.isEverythingBelow

/-- Compares segments and parts in step. Where the path ends first the node is an ancestor of
selected nodes and is selected as well; where the filter ends first `below` decides. -/
def walk (pairs : List (String × String)) (below : Bool) :
    List Expr → List (List Char) → Except EvalError Bool
  | _, [] => .ok true
  | [], _ :: _ => .ok below
  | e :: es, part :: parts => do
    if ← e.selects pairs part then walk pairs below es parts else pure false

/-- Whether the segments select the node at a path. -/
def matchPath (segments : List Expr) (path : String) (bag : PropertyBag) :
    Except MatchError Bool :=
  match path.toList with
  | '/' :: rest =>
    (walk bag.pairs (reachesBelow segments) segments (pathParts rest)).mapError .evaluation
  | _ => .error (.invalidPath path)

end PathFilter
