import PathFilter.ExprText

namespace PathFilter

/-- A rule that a tree may break. -/
inductive Violation where
  | operandCount (op : Operator) (count : Nat)
  | separatorInValue
  | misplacedEverythingBelow
  | nestedBracket
  | propertyOutsideBracket
  | foreignKind (name : String)
deriving DecidableEq, Repr

/-- A broken rule and the expression that breaks it. -/
structure ValidationError where
  violation : Violation
  offender : Expr
deriving DecidableEq

namespace ValidationError

def message (e : ValidationError) : String :=
  match e.violation with
  | .operandCount .not count =>
    "Operator '!' requires exactly one operand, got " ++ toString count
  | .operandCount op count =>
    "Operator '" ++ String.ofList [op.char] ++ "' requires at least two operands, got " ++
      toString count
  | .separatorInValue =>
    "A filter \"" ++ e.offender.text ++ "\" should not contain a / character."
  | .misplacedEverythingBelow => "Only the final filter path can contain ** wildcard."
  | .nestedBracket => "Property filters cannot be nested"
  | .propertyOutsideBracket =>
    "'" ++ e.offender.text ++ "' is only allowed inside a property filter '[...]'"
  | .foreignKind name => "Unsupported filter expression: " ++ name

/-- The text of the offender. An expression of a foreign kind has none. -/
def fragment (e : ValidationError) : Option String :=
  match e.violation with
  | .foreignKind _ => none
  | _ => some e.offender.text

end ValidationError

namespace Operator

/-- A negation has one operand, the other operators have two or more. -/
def admits (op : Operator) (count : Nat) : Bool :=
  match op with
  | .not => count == 1
  | _ => 2 ≤ count

end Operator

/-- The rules for a value that stands for the text of a segment. -/
def validateSegmentValue (lastSegment : Bool) (m : Mask) : Except ValidationError Unit :=
  if m.text.contains '/' then .error ⟨.separatorInValue, .value m⟩
  else if m == Mask.everythingBelow && !lastSegment then
    .error ⟨.misplacedEverythingBelow, .value m⟩
  else .ok ()

mutual

/-- Checks an expression before its parts, and its parts from left to right. -/
def validateExpr (lastSegment inBracket : Bool) : Expr → Except ValidationError Unit
  | .apply op es =>
    if op.admits es.length then validateOperands lastSegment inBracket es
    else .error ⟨.operandCount op es.length, .apply op es⟩
  | .value m => if inBracket then .ok () else validateSegmentValue lastSegment m
  | .node v e =>
    if inBracket then .error ⟨.nestedBracket, .node v e⟩
    else do
      validateSegmentValue lastSegment v
      validateExpr true true e
  | .property k v =>
    if inBracket then .ok () else .error ⟨.propertyOutsideBracket, .property k v⟩
  | .always => .ok ()
  | .foreign f => .error ⟨.foreignKind f.name, .foreign f⟩

def validateOperands (lastSegment inBracket : Bool) : List Expr → Except ValidationError Unit
  | [] => .ok ()
  | e :: es => do
    validateExpr lastSegment inBracket e
    validateOperands lastSegment inBracket es

end

/-- Checks the segments from left to right. The value `**` is left to the last. -/
def validateSegments : List Expr → Except ValidationError Unit
  | [] => .ok ()
  | e :: es => do
    validateExpr es.isEmpty false e
    validateSegments es

end PathFilter
