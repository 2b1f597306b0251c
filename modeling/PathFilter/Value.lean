namespace PathFilter

/-- A value of any kind, as a caller or a report hands it over. -/
inductive Value where
  | null
  | bool (b : Bool)
  | int (n : Int)
  | text (s : String)
  | list (items : List Value)
  /-- named fields in order -/
  | fields (entries : List (String × Value))
  /-- a value of another type, by its text, and whether it counts as empty -/
  | other (type text : String) (isEmpty : Bool)

namespace Value

instance : Inhabited Value := ⟨.null⟩

/-- The kind of a value, as messages name it. -/
def typeName : Value → String
  | .null => "NoneType"
  | .bool _ => "bool"
  | .int _ => "int"
  | .text _ => "str"
  | .list _ => "list"
  | .fields _ => "dict"
  | .other type _ _ => type

def ofOption (s : Option String) : Value :=
  match s with
  | none => .null
  | some s => .text s

/-- The field of a name; a value of another kind has no fields. -/
def field? (name : String) : Value → Option Value
  | .fields entries => entries.lookup name
  | _ => none

/-- Empty texts, lists and field sets, zero, null and false are empty; all else holds something. -/
def holds : Value → Bool
  | .null => false
  | .bool b => b
  | .int n => n != 0
  | .text s => !s.isEmpty
  | .list items => !items.isEmpty
  | .fields entries => !entries.isEmpty
  | .other _ _ isEmpty => !isEmpty

end Value

end PathFilter
