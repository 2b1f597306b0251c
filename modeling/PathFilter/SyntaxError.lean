import PathFilter.Token

namespace PathFilter

/-- Why a text is no filter. -/
inductive SyntaxFault where
  /-- a backslash with nothing after it -/
  | danglingEscape
  /-- a value right after an operand; `rest` is the filter from that value on -/
  | valueAfterOperand (rest : List Char)
  | connectiveWithoutOperand (mark : Mark)
  | negationAfterOperand
  | separatorAfterMark (mark : Mark)
  | emptySegment
  | separatorInGroup
  | groupAfterOperand
  | closerWithoutOperand (closer : Mark)
  | bracketWithoutValue
  | bracketAfterCompound
  | equalsOutsideBracket
  | equalsWithoutOperand
  | equalsBetweenCompounds
  /-- a closer for which nothing is open -/
  | unopened (closer opener : Mark)
  /-- a closer that meets an opener of the other kind, which stands at `pos` -/
  | crossed (closer opener : Mark) (pos : Nat)
  | unclosedGroup
  | unclosedBracket
  /-- a separator between an opener and its closer -/
  | enclosedSeparator
  | missingOperand
  | endAfterMark (mark : Mark)
  | emptyFilter
deriving DecidableEq, Repr

namespace SyntaxFault

def message : SyntaxFault → String
  | .danglingEscape => "An escape character should not terminate the filter string"
  | .valueAfterOperand rest =>
    "Unexpected value '" ++ String.ofList rest ++ "', expected an operator"
  | .connectiveWithoutOperand m => "Unexpected operator " ++ m.quoted ++ ", expected an operand"
  | .negationAfterOperand => "'!' must precede an operand"
  | .separatorAfterMark m => "Expected an operand after " ++ m.quoted
  | .emptySegment => "Empty path segment"
  | .separatorInGroup => "Path separator is not allowed inside '('"
  | .groupAfterOperand => "Unexpected '(', expected an operator"
  | .closerWithoutOperand m => "Unexpected " ++ m.quoted ++ ", expected an operand"
  | .bracketWithoutValue => "A property filter '[' must directly follow a node value"
  | .bracketAfterCompound => "A property filter must follow a plain node value"
  | .equalsOutsideBracket => "'=' is only allowed inside a property filter '[...]'"
  | .equalsWithoutOperand => "Unexpected '=', expected an operand"
  | .equalsBetweenCompounds => "Both sides of '=' must be plain values"
  | .unopened closer opener =>
    "Unbalanced " ++ closer.quoted ++ ": no matching " ++ opener.quoted
  | .crossed closer opener pos =>
    "Unbalanced " ++ closer.quoted ++ ": " ++ opener.quoted ++ " at position " ++ toString pos ++
      " is not closed"
  | .unclosedGroup => "Unbalanced parentheses: '(' is never closed"
  | .unclosedBracket => "Unbalanced brackets: '[' is never closed"
  | .enclosedSeparator => "Invalid input filter string"
  | .missingOperand => "Missing operand"
  | .endAfterMark m => "Unexpected end of filter, expected an operand after " ++ m.quoted
  | .emptyFilter => "Empty filter expression"

end SyntaxFault

/-- A fault and where it was noticed: an index into the filter, unless the filter has no token
to point at. -/
structure SyntaxError where
  fault : SyntaxFault
  pos : Option Nat
deriving DecidableEq, Repr

/-- A message with the position that it speaks of, if there is one. -/
def withPosition (message : String) : Option Int → String
  | none => message
  | some pos => message ++ " (at position " ++ toString pos ++ ")"

namespace SyntaxError

def «at» (fault : SyntaxFault) (pos : Nat) : SyntaxError := ⟨fault, some pos⟩

def message (e : SyntaxError) : String := withPosition e.fault.message (e.pos.map Int.ofNat)

end SyntaxError

end PathFilter
