import PathFilter.Quoted
import PathFilter.Value

namespace PathFilter

namespace Value

mutual

/-- A value as an element of a larger one: texts are quoted. -/
def described : Value → String
  | .null => "None"
  | .bool b => if b then "True" else "False"
  | .int n => toString n
  | .text s => quoted s
  | .list items => "[" ++ ", ".intercalate (describedItems items) ++ "]"
  | .fields entries => "\x7b" ++ ", ".intercalate (describedEntries entries) ++ "\x7d"
  | .other _ s _ => s

def describedItems : List Value → List String
  | [] => []
  | v :: items => described v :: describedItems items

def describedEntries : List (String × Value) → List String
  | [] => []
  | (name, v) :: entries => (quoted name ++ ": " ++ described v) :: describedEntries entries

end

/-- A value as a text of its own: texts stand as they are. -/
def shown : Value → String
  | .text s => s
  | v => described v

end Value

end PathFilter
