import PathFilter.PatternText

namespace PathFilter

/-- The characters that stand for structure unless a backslash precedes them. -/
inductive Mark where
  | and
  | or
  | not
  | openGroup
  | closeGroup
  | openBracket
  | closeBracket
  | equals
  | separator
deriving DecidableEq, Repr

namespace Mark

def char : Mark → Char
  | .and => '&'
  | .or => '|'
  | .not => '!'
  | .openGroup => '('
  | .closeGroup => ')'
  | .openBracket => '['
  | .closeBracket => ']'
  | .equals => '='
  | .separator => '/'

def ofChar? (c : Char) : Option Mark :=
  if c = '&' then some .and
  else if c = '|' then some .or
  else if c = '!' then some .not
  else if c = '(' then some .openGroup
  else if c = ')' then some .closeGroup
  else if c = '[' then some .openBracket
  else if c = ']' then some .closeBracket
  else if c = '=' then some .equals
  else if c = '/' then some .separator
  else none

/-- The mark in quotes, as messages name it. -/
def quoted (m : Mark) : String := String.ofList ['\'', m.char, '\'']

/-- The number of brackets open after the mark. Without a check it may fall below zero. -/
def depthAfter (m : Mark) (depth : Int) : Int :=
  match m with
  | .openBracket => depth + 1
  | .closeBracket => depth - 1
  | _ => depth

theorem ofChar?_char (m : Mark) : ofChar? m.char = some m := by
  cases m <;> rfl

end Mark

inductive Lexeme where
  | value (p : Pattern)
  | mark (m : Mark)
deriving DecidableEq, Repr

/-- A lexeme with the index of its first character in the filter. -/
structure Token where
  lexeme : Lexeme
  pos : Nat
deriving DecidableEq, Repr

/-- A value's expression text, or the character of a mark. -/
def Lexeme.text : Lexeme → List Char
  | .value p => p.encode
  | .mark m => [m.char]

end PathFilter
