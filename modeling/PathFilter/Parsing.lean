import PathFilter.Expr
import PathFilter.Lexing
import PathFilter.SyntaxError

namespace PathFilter

/-- What may wait on the operator stack for its right-hand side or its closer. -/
inductive EntryKind where
  | group
  | bracket
  | separator
  | or
  | and
  | not
  | equals
deriving DecidableEq, Repr

namespace EntryKind

/-- How tightly an entry binds its operands. -/
def strength : EntryKind → Nat
  | .group => 0
  | .bracket => 1
  | .separator => 2
  | .or => 3
  | .and => 4
  | .not => 5
  | .equals => 6

/-- Openers leave the stack through their closer only. -/
def isOpener : EntryKind → Bool
  | .group => true
  | .bracket => true
  | _ => false

end EntryKind

/-- An operator that waits, with the index of its character in the filter. -/
structure Entry where
  kind : EntryKind
  pos : Nat
deriving DecidableEq, Repr

/-- A filter read up to some token. Both stacks have their top at the head. -/
structure Parsing where
  operands : List Expr
  operators : List Entry
  /-- the last token ended an operand -/
  operatorAllowed : Bool
  /-- the last token was a value -/
  bracketAllowed : Bool
  /-- the number of open parentheses -/
  groupDepth : Nat
  inBracket : Bool
  /-- the last mark that still waits for its right-hand operand -/
  waiting : Option (Mark × Nat)
  previous : Option Lexeme

namespace Parsing

def start : Parsing where
  operands := []
  operators := []
  operatorAllowed := false
  bracketAllowed := false
  groupDepth := 0
  inBracket := false
  waiting := none
  previous := none

def popOperand (pos : Nat) : List Expr → Except SyntaxError (Expr × List Expr)
  | [] => .error (.at .missingOperand pos)
  | e :: operands => .ok (e, operands)

/-- Takes one operand for each entry of kind `kind` on top of the stack, in front of those in
`taken`, so that a chain of one operator becomes one node with its operands in textual order. -/
def takeChain (kind : EntryKind) :
    List Entry → List Expr → List Expr → Except SyntaxError (List Entry × List Expr × List Expr)
  | [], operands, taken => .ok ([], operands, taken)
  | entry :: entries, operands, taken =>
    if entry.kind = kind then do
      let (e, operands) ← popOperand entry.pos operands
      takeChain kind entries operands (e :: taken)
    else .ok (entry :: entries, operands, taken)

def applyChain (op : Operator) (entry : Entry) (entries : List Entry) (operands : List Expr) :
    Except SyntaxError (List Entry × List Expr) := do
  let (last, operands) ← popOperand entry.pos operands
  let (first, operands) ← popOperand entry.pos operands
  let (entries, operands, taken) ← takeChain entry.kind entries operands [first, last]
  pure (entries, .apply op taken :: operands)

/-- Applies an entry that has left the stack to the topmost operands. -/
def applyEntry (entry : Entry) (entries : List Entry) (operands : List Expr) :
    Except SyntaxError (List Entry × List Expr) :=
  match entry.kind with
  | .and => applyChain .and entry entries operands
  | .or => applyChain .or entry entries operands
  | .not => do
    let (e, operands) ← popOperand entry.pos operands
    pure (entries, .apply .not [e] :: operands)
  | .equals => do
    let (value, operands) ← popOperand entry.pos operands
    let (key, operands) ← popOperand entry.pos operands
    match key, value with
    | .value k, .value v => pure (entries, .property k v :: operands)
    | _, _ => .error (.at .equalsBetweenCompounds entry.pos)
  | _ => .error (.at .enclosedSeparator entry.pos)

/-- Applies entries from the top of the stack for as long as `applies` holds of the topmost.
One unit of the budget is spent for each; every application shortens the stack, so its length
is enough. -/
def unwind (applies : EntryKind → Bool) :
    Nat → List Entry → List Expr → Except SyntaxError (List Entry × List Expr)
  | 0, entries, operands => .ok (entries, operands)
  | _, [], operands => .ok ([], operands)
  | budget + 1, entry :: entries, operands =>
    if applies entry.kind then do
      let (entries, operands) ← applyEntry entry entries operands
      unwind applies budget entries operands
    else .ok (entry :: entries, operands)

/-- Pushes an operator once those on the stack that bind tighter have been applied. -/
def pushOperator (s : Parsing) (kind : EntryKind) (pos : Nat) : Except SyntaxError Parsing := do
  let applies := fun top : EntryKind => !top.isOpener && kind.strength < top.strength
  let (entries, operands) ← unwind applies s.operators.length s.operators s.operands
  pure { s with operators := ⟨kind, pos⟩ :: entries, operands := operands }

/-- Applies what stands after the topmost opener, which must be of kind `opener`, and drops it. -/
def close (s : Parsing) (opener : EntryKind) (closer openMark : Mark) (pos : Nat) :
    Except SyntaxError Parsing := do
  let (entries, operands) ←
    unwind (fun top => !top.isOpener) s.operators.length s.operators s.operands
  match entries with
  | [] => .error (.at (.unopened closer openMark) pos)
  | entry :: entries =>
    if entry.kind = opener then pure { s with operators := entries, operands := operands }
    else
      let other := if entry.kind = .group then Mark.openGroup else Mark.openBracket
      .error (.at (.crossed closer other entry.pos) pos)

def onValue (filter : List Char) (s : Parsing) (p : Pattern) (pos : Nat) :
    Except SyntaxError Parsing :=
  if s.operatorAllowed then .error (.at (.valueAfterOperand (filter.drop pos)) pos)
  else .ok { s with
    operands := .value (.ofPattern p) :: s.operands
    operatorAllowed := true
    bracketAllowed := true
    waiting := none }

def onConnective (s : Parsing) (mark : Mark) (kind : EntryKind) (pos : Nat) :
    Except SyntaxError Parsing :=
  if s.operatorAllowed then do
    let s ← s.pushOperator kind pos
    pure { s with operatorAllowed := false, bracketAllowed := false, waiting := some (mark, pos) }
  else .error (.at (.connectiveWithoutOperand mark) pos)

/-- A negation stands before its operand, so nothing on the stack is complete yet. -/
def onNegation (s : Parsing) (pos : Nat) : Except SyntaxError Parsing :=
  if s.operatorAllowed then .error (.at .negationAfterOperand pos)
  else .ok { s with
    operators := ⟨.not, pos⟩ :: s.operators
    bracketAllowed := false
    waiting := some (.not, pos) }

def onSeparator (s : Parsing) (pos : Nat) : Except SyntaxError Parsing :=
  match s.waiting with
  | some (mark, _) => .error (.at (.separatorAfterMark mark) pos)
  | none =>
    if s.previous = some (.mark .separator) then .error (.at .emptySegment pos)
    else if 0 < s.groupDepth then .error (.at .separatorInGroup pos)
    else do
      let s ← s.pushOperator .separator pos
      pure { s with operatorAllowed := false, bracketAllowed := false }

def onOpenGroup (s : Parsing) (pos : Nat) : Except SyntaxError Parsing :=
  if s.operatorAllowed then .error (.at .groupAfterOperand pos)
  else .ok { s with
    operators := ⟨.group, pos⟩ :: s.operators
    groupDepth := s.groupDepth + 1
    operatorAllowed := false
    bracketAllowed := false
    waiting := some (.openGroup, pos) }

def onCloseGroup (s : Parsing) (pos : Nat) : Except SyntaxError Parsing :=
  if s.operatorAllowed then do
    let s ← s.close .group .closeGroup .openGroup pos
    pure { s with
      groupDepth := s.groupDepth - 1
      operatorAllowed := true
      bracketAllowed := false }
  else .error (.at (.closerWithoutOperand .closeGroup) pos)

def onOpenBracket (s : Parsing) (pos : Nat) : Except SyntaxError Parsing :=
  if s.bracketAllowed && !s.inBracket then .ok { s with
    operators := ⟨.bracket, pos⟩ :: s.operators
    inBracket := true
    operatorAllowed := false
    bracketAllowed := false
    waiting := some (.openBracket, pos) }
  else .error (.at .bracketWithoutValue pos)

/-- The filter inside the bracket and the value before it become one node. -/
def onCloseBracket (s : Parsing) (pos : Nat) : Except SyntaxError Parsing :=
  if s.operatorAllowed then do
    let s ← s.close .bracket .closeBracket .openBracket pos
    let (filter, operands) ← popOperand pos s.operands
    let (node, operands) ← popOperand pos operands
    match node with
    | .value m => pure { s with
        operands := .node m filter :: operands
        inBracket := false
        operatorAllowed := true
        bracketAllowed := false }
    | _ => .error (.at .bracketAfterCompound pos)
  else .error (.at (.closerWithoutOperand .closeBracket) pos)

/-- An equals sign binds tighter than all else in brackets, so it is pushed as it comes. -/
def onEquals (s : Parsing) (pos : Nat) : Except SyntaxError Parsing :=
  if !s.inBracket then .error (.at .equalsOutsideBracket pos)
  else if !s.operatorAllowed then .error (.at .equalsWithoutOperand pos)
  else .ok { s with
    operators := ⟨.equals, pos⟩ :: s.operators
    operatorAllowed := false
    bracketAllowed := false
    waiting := some (.equals, pos) }

def onLexeme (filter : List Char) (s : Parsing) (pos : Nat) : Lexeme → Except SyntaxError Parsing
  | .value p => s.onValue filter p pos
  | .mark .and => s.onConnective .and .and pos
  | .mark .or => s.onConnective .or .or pos
  | .mark .not => s.onNegation pos
  | .mark .separator => s.onSeparator pos
  | .mark .openGroup => s.onOpenGroup pos
  | .mark .closeGroup => s.onCloseGroup pos
  | .mark .openBracket => s.onOpenBracket pos
  | .mark .closeBracket => s.onCloseBracket pos
  | .mark .equals => s.onEquals pos

/-- Reads one token of the filter. -/
def consume (filter : List Char) (s : Parsing) (token : Token) : Except SyntaxError Parsing := do
  let s ← s.onLexeme filter token.pos token.lexeme
  pure { s with previous := some token.lexeme }

def consumeAll (filter : List Char) : Parsing → List Token → Except SyntaxError Parsing
  | s, [] => .ok s
  | s, token :: tokens => do
    let s ← s.consume filter token
    consumeAll filter s tokens

/-- Applies what is left on the stack at the end of the filter. Separators have done their work. -/
def drain : Nat → List Entry → List Expr → Except SyntaxError (List Expr)
  | 0, _, operands => .ok operands
  | _, [], operands => .ok operands
  | budget + 1, entry :: entries, operands =>
    match entry.kind with
    | .separator => drain budget entries operands
    | .group => .error (.at .unclosedGroup entry.pos)
    | .bracket => .error (.at .unclosedBracket entry.pos)
    | _ => do
      let (entries, operands) ← applyEntry entry entries operands
      drain budget entries operands

/-- The segments of the filter, from left to right. -/
def finish (s : Parsing) : Except SyntaxError (List Expr) :=
  match s.waiting with
  | some (mark, pos) => .error (.at (.endAfterMark mark) pos)
  | none => do
    let operands ← drain s.operators.length s.operators s.operands
    if operands.isEmpty then .error ⟨.emptyFilter, none⟩ else pure operands.reverse

end Parsing

/-- The segments that a filter spells, one for each separated part, before any check of what they
say. A fault in a token comes before a backslash that ends the filter, and that backslash comes
before any fault of the whole. -/
def readSegments (filter : List Char) : Except SyntaxError (List Expr) := do
  let lexing := Lexing.ofFilter filter
  let s ← Parsing.start.consumeAll filter lexing.tokens
  match lexing.dangling with
  | some pos => .error (.at .danglingEscape pos)
  | none => s.finish

end PathFilter
