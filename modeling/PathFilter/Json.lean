import PathFilter.Quoted
import PathFilter.ValueText

namespace PathFilter

namespace Json

def encodeChar (c : Char) : List Char :=
  if c = '"' ∨ c = '\\' then ['\\', c]
  else if c = '\n' then ['\\', 'n']
  else if c = '\r' then ['\\', 'r']
  else if c = '\t' then ['\\', 't']
  else if c = '\x08' then ['\\', 'b']
  else if c = '\x0c' then ['\\', 'f']
  else if c.toNat < 0x20 then '\\' :: 'u' :: Quoted.hex 4 c.toNat
  else [c]

/-- A text in double quotes. Only controls, quotes and backslashes are escaped. -/
def quote (s : String) : String :=
  String.ofList ('"' :: s.toList.flatMap encodeChar ++ ['"'])

mutual

/-- A value on one line, with a blank after each comma and colon. -/
def line : Value → String
  | .null => "null"
  | .bool b => if b then "true" else "false"
  | .int n => toString n
  | .text s => quote s
  | .list items => "[" ++ ", ".intercalate (lineItems items) ++ "]"
  | .fields entries => "\x7b" ++ ", ".intercalate (lineEntries entries) ++ "\x7d"
  | .other _ s _ => s

def lineItems : List Value → List String
  | [] => []
  | v :: items => line v :: lineItems items

def lineEntries : List (String × Value) → List String
  | [] => []
  | (name, v) :: entries => (quote name ++ ": " ++ line v) :: lineEntries entries

end

def blanks (n : Nat) : String := String.ofList (List.replicate n ' ')

/-- Parts on lines of their own, two blanks deeper than the brackets around them. -/
def block (opener closer : String) (indent : Nat) (parts : List String) : String :=
  if parts.isEmpty then opener ++ closer
  else
    opener ++ "\n" ++ blanks (indent + 2) ++
      (",\n" ++ blanks (indent + 2)).intercalate parts ++ "\n" ++ blanks indent ++ closer

mutual

/-- A value with one part on each line. -/
def indented (indent : Nat) : Value → String
  | .list items => block "[" "]" indent (indentedItems (indent + 2) items)
  | .fields entries => block "\x7b" "\x7d" indent (indentedEntries (indent + 2) entries)
  | .null => line .null
  | .bool b => line (.bool b)
  | .int n => line (.int n)
  | .text s => line (.text s)
  | .other type text isEmpty => line (.other type text isEmpty)

def indentedItems (indent : Nat) : List Value → List String
  | [] => []
  | v :: items => indented indent v :: indentedItems indent items

def indentedEntries (indent : Nat) : List (String × Value) → List String
  | [] => []
  | (name, v) :: entries =>
    (quote name ++ ": " ++ indented indent v) :: indentedEntries indent entries

end

end Json

end PathFilter
