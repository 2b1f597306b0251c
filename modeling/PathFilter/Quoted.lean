import PathFilter.Printable

namespace PathFilter

namespace Quoted

def hexDigit (n : Nat) : Char :=
  if n < 10 then Char.ofNat (48 + n) else Char.ofNat (87 + n)

/-- The last `width` hexadecimal digits of `n`, in lower case. -/
def hex : Nat → Nat → List Char
  | 0, _ => []
  | width + 1, n => hex width (n / 16) ++ [hexDigit (n % 16)]

/-- An unprintable character by number, in the shortest of the three widths that holds it. -/
def numbered (c : Char) : List Char :=
  if c.toNat < 0x100 then '\\' :: 'x' :: hex 2 c.toNat
  else if c.toNat < 0x10000 then '\\' :: 'u' :: hex 4 c.toNat
  else '\\' :: 'U' :: hex 8 c.toNat

def encodeChar (quote c : Char) : List Char :=
  if c = quote ∨ c = '\\' then ['\\', c]
  else if c = '\n' then ['\\', 'n']
  else if c = '\r' then ['\\', 'r']
  else if c = '\t' then ['\\', 't']
  else if isPrintable c then [c]
  else numbered c

/-- The single quote, unless the text holds one and no double quote. -/
def quoteFor (t : List Char) : Char :=
  if t.contains '\'' && !t.contains '"' then '"' else '\''

/-- A text between quotes on one line, with only printable characters. -/
def encode (t : List Char) : List Char :=
  quoteFor t :: t.flatMap (encodeChar (quoteFor t)) ++ [quoteFor t]

end Quoted

/-- A text as messages quote it. -/
def quoted (s : String) : String := String.ofList (Quoted.encode s.toList)

end PathFilter
