import PathFilter.Pattern

namespace PathFilter

namespace Pattern

/-- The characters that the expression text of a value writes after a backslash. -/
def reserved : List Char :=
  ['(', ')', '[', ']', '\x7b', '\x7d', '?', '*', '+', '-', '|', '^', '$', '\\', '.', '&', '~', '#',
    ' ', '\t', '\n', '\r', '\x0b', '\x0c']

/-- The characters that have a meaning of their own in the text of a filter. -/
def special : List Char :=
  ['\\', '*', '&', '|', '!', '(', ')', '[', ']', '=', '/']

def encodePiece : Piece → List Char
  | .literal c => if reserved.contains c then ['\\', c] else [c]
  | .wildcard => ['.', '*']

/-- The expression text of a value: `.*` for a wildcard, a backslash before each reserved literal. -/
def encode (p : Pattern) : List Char := p.flatMap encodePiece

/-- Reads an expression text. A character that opens neither `.*` nor an escape stands for itself. -/
def decode : List Char → Pattern
  | [] => []
  | '.' :: '*' :: t => .wildcard :: decode t
  | '\\' :: c :: t => .literal c :: decode t
  | c :: t => .literal c :: decode t

def showPiece : Piece → List Char
  | .literal c => if reserved.contains c && special.contains c then ['\\', c] else [c]
  | .wildcard => ['*']

/-- The filter text of a pattern, piece by piece. -/
def shown (p : Pattern) : List Char := p.flatMap showPiece

theorem encode_cons (x : Piece) (p : Pattern) : encode (x :: p) = encodePiece x ++ encode p := rfl

theorem shown_cons (x : Piece) (p : Pattern) : shown (x :: p) = showPiece x ++ shown p := rfl

theorem ne_of_not_reserved {c d : Char} (h : reserved.contains c = false)
    (hd : reserved.contains d = true) : c ≠ d := by
  rintro rfl
  rw [h] at hd
  contradiction

theorem decode_plain {c : Char} (h : reserved.contains c = false) (t : List Char) :
    decode (c :: t) = .literal c :: decode t := by
  have hdot : c ≠ '.' := ne_of_not_reserved h rfl
  have hslash : c ≠ '\\' := ne_of_not_reserved h rfl
  rw [decode.eq_4]
  · exact fun _ he _ => hdot he
  · exact fun _ _ he _ => hslash he

theorem decode_encode (p : Pattern) : decode (encode p) = p := by
  induction p with
  | nil => rfl
  | cons x p ih =>
    rw [encode_cons]
    cases x with
    | wildcard => simp [encodePiece, decode, ih]
    | literal c =>
      cases h : reserved.contains c with
      | true => simp only [encodePiece, h, ↓reduceIte, List.cons_append, List.nil_append, decode, ih]
      | false =>
        simp only [encodePiece, h, Bool.false_eq_true, ↓reduceIte, List.cons_append,
          List.nil_append, decode_plain h, ih]

end Pattern

end PathFilter
