import PathFilter.Token

namespace PathFilter

/-- The part of a value read so far, and the index where it began. -/
structure Literal where
  start : Nat
  pieces : Pattern
deriving DecidableEq, Repr

namespace Literal

def none : Literal := ⟨0, []⟩

def push (l : Literal) (pos : Nat) (x : Piece) : Literal :=
  ⟨if l.pieces.isEmpty then pos else l.start, l.pieces ++ [x]⟩

def tokens (l : Literal) : List Token :=
  if l.pieces.isEmpty then [] else [⟨.value l.pieces, l.start⟩]

end Literal

/-- The tokens of a filter. When a backslash ends the filter, `dangling` is its index and the
tokens are those that were complete before it. -/
structure Lexing where
  tokens : List Token
  dangling : Option Nat
deriving DecidableEq, Repr

namespace Lexing

def prepend (front : List Token) (l : Lexing) : Lexing := ⟨front ++ l.tokens, l.dangling⟩

/-- Reads on at index `pos` with `depth` brackets open. A separator inside brackets is literal. -/
def scan : List Char → Nat → Int → Literal → Lexing
  | [], _, _, literal => ⟨literal.tokens, none⟩
  | c :: rest, pos, depth, literal =>
    if c = '\\' then
      match rest with
      | [] => ⟨[], some pos⟩
      | d :: rest => scan rest (pos + 2) depth (literal.push pos (.literal d))
    else if c = '*' then scan rest (pos + 1) depth (literal.push pos .wildcard)
    else if c = '/' ∧ 0 < depth then scan rest (pos + 1) depth (literal.push pos (.literal c))
    else
      match Mark.ofChar? c with
      | some m =>
        (scan rest (pos + 1) (m.depthAfter depth) .none).prepend
          (literal.tokens ++ [⟨.mark m, pos⟩])
      | none => scan rest (pos + 1) depth (literal.push pos (.literal c))

def ofFilter (filter : List Char) : Lexing := scan filter 0 0 .none

end Lexing

/-- A token at the moment at which the scan hands it over and stops until it is asked for the next,
with the brackets that the scan has counted by then. -/
structure Handover where
  token : Token
  depth : Int
deriving DecidableEq, Repr

namespace Handover

def each (depth : Int) (tokens : List Token) : List Handover :=
  tokens.map fun token => ⟨token, depth⟩

/-- The tokens of a scan as it hands them over. A mark is counted when it is read, and a value that
it ends is handed over only after that. -/
def scan : List Char → Nat → Int → Literal → List Handover
  | [], _, depth, literal => each depth literal.tokens
  | c :: rest, pos, depth, literal =>
    if c = '\\' then
      match rest with
      | [] => []
      | d :: rest => scan rest (pos + 2) depth (literal.push pos (.literal d))
    else if c = '*' then scan rest (pos + 1) depth (literal.push pos .wildcard)
    else if c = '/' ∧ 0 < depth then scan rest (pos + 1) depth (literal.push pos (.literal c))
    else
      match Mark.ofChar? c with
      | some m =>
        each (m.depthAfter depth) (literal.tokens ++ [⟨.mark m, pos⟩]) ++
          scan rest (pos + 1) (m.depthAfter depth) .none
      | none => scan rest (pos + 1) depth (literal.push pos (.literal c))

def ofFilter (filter : List Char) : List Handover := scan filter 0 0 .none

/-- What the scan has counted when it has handed over these. -/
def counted (handed : List Handover) : Int := (handed.getLast?.map Handover.depth).getD 0

end Handover

end PathFilter
