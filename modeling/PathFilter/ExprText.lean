import PathFilter.Expr
import PathFilter.Quoted

namespace PathFilter

inductive ExprKind where
  | value
  | apply
  | property
  | node
  | always
  | foreign (name : String)
deriving DecidableEq, Repr

namespace ExprKind

def name : ExprKind → String
  | .value => "ValueExpression"
  | .apply => "OperatorExpression"
  | .property => "PropertyExpression"
  | .node => "ValueAndPropertyExpression"
  | .always => "NopExpression"
  | .foreign name => name

end ExprKind

namespace Operator

def char : Operator → Char
  | .and => '&'
  | .or => '|'
  | .not => '!'

def name : Operator → String
  | .and => "AND"
  | .or => "OR"
  | .not => "NOT"

end Operator

namespace Expr

def kind : Expr → ExprKind
  | .value _ => .value
  | .apply _ _ => .apply
  | .property _ _ => .property
  | .node _ _ => .node
  | .always => .always
  | .foreign f => .foreign f.name

/-- The text of an operand: operators are put in parentheses. -/
def grouped (e : Expr) (text : List Char) : List Char :=
  match e with
  | .apply _ _ => '(' :: text ++ [')']
  | _ => text

/-- Operands in a row: the operator stands before the only operand of a negation, and between
the operands of the others. -/
def joined (op : Operator) (operands : List (List Char)) : List Char :=
  match op with
  | .not => '!' :: operands.flatten
  | _ => [op.char].intercalate operands

mutual

/-- The filter text of an expression. -/
def shown : Expr → List Char
  | .value m => m.shown
  | .apply op es => joined op (shownOperands es)
  | .property k v => k.shown ++ '=' :: v.shown
  | .node v e => v.shown ++ '[' :: shown e ++ [']']
  | .always => ['<', 'n', 'o', 'p', '>']
  | .foreign f => f.text.toList

def shownOperands : List Expr → List (List Char)
  | [] => []
  | e :: es => grouped e (shown e) :: shownOperands es

end

def text (e : Expr) : String := String.ofList e.shown

def describeValue (m : Mask) : String :=
  ExprKind.value.name ++ "(" ++ quoted (String.ofList m.shown) ++ ")"

mutual

/-- The tree of an expression on one line, kinds named and values quoted. -/
def describe : Expr → String
  | .value m => describeValue m
  | .apply op es =>
    ExprKind.apply.name ++ "(" ++ op.name ++ ", [" ++ ", ".intercalate (describeAll es) ++ "])"
  | .property k v =>
    ExprKind.property.name ++ "(name=" ++ describeValue k ++ ", value=" ++ describeValue v ++ ")"
  | .node v e =>
    ExprKind.node.name ++ "(value=" ++ describeValue v ++ ", properties=" ++ describe e ++ ")"
  | .always => ExprKind.always.name ++ "()"
  | .foreign f => f.description

def describeAll : List Expr → List String
  | [] => []
  | e :: es => describe e :: describeAll es

end

theorem shownOperands_eq_map (es : List Expr) :
    shownOperands es = es.map fun e => grouped e (shown e) := by
  induction es with
  | nil => rfl
  | cons e es ih => simp [shownOperands, ih]

end Expr

end PathFilter
