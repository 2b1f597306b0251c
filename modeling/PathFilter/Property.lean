import PathFilter.ValueText

namespace PathFilter

/-- What is attached to a node. Filters look at pairs only. -/
inductive Property where
  | pair (key value : String)
  | label (name : String)
deriving DecidableEq, Repr

namespace Property

def pair? : Property → Option (String × String)
  | .pair k v => some (k, v)
  | .label _ => none

def describe : Property → String
  | .pair k v => "KeyValuePairProperty(key=" ++ quoted k ++ ", value=" ++ quoted v ++ ")"
  | .label name => "DisplayNameProperty(display_name=" ++ quoted name ++ ")"

end Property

/-- The properties of a node, in order. -/
structure PropertyBag where
  properties : List Property
deriving DecidableEq, Repr

/-- A value that does not give a bag. -/
inductive PropertyError where
  /-- an element that is no property -/
  | notProperty (type : String)
  | notIterable (type : String)
deriving DecidableEq, Repr

namespace PropertyError

def message : PropertyError → String
  | .notProperty type => "Expected a Property, got " ++ type
  | .notIterable type => "'" ++ type ++ "' object is not iterable"

end PropertyError

/-- An element of a list that may hold properties. -/
inductive Element where
  | property (p : Property)
  | other (v : Value)

/-- What a caller may pass for the properties of a node. -/
inductive PropertySource where
  | nothing
  | bag (b : PropertyBag)
  | mapping (entries : List (Value × Value))
  | elements (items : List Element)
  | value (v : Value)

namespace PropertyBag

def empty : PropertyBag := ⟨[]⟩

def pairs (b : PropertyBag) : List (String × String) := b.properties.filterMap Property.pair?

def ofPairs (pairs : List (String × String)) : PropertyBag :=
  ⟨pairs.map fun entry => .pair entry.1 entry.2⟩

/-- Refuses the first element that is no property. -/
def propertiesOf : List Element → Except PropertyError (List Property)
  | [] => .ok []
  | .other v :: _ => .error (.notProperty v.typeName)
  | .property p :: items => (propertiesOf items).map (p :: ·)

def ofElements (items : List Element) : Except PropertyError PropertyBag :=
  (propertiesOf items).map PropertyBag.mk

/-- One pair for each entry, keys and values taken as texts. -/
def ofMapping (entries : List (Value × Value)) : PropertyBag :=
  ofPairs (entries.map fun entry => (entry.1.shown, entry.2.shown))

/-- The elements of a plain value: the items of a list, or the characters of a text. -/
def elementsOf : Value → Except PropertyError (List Element)
  | .list items => .ok (items.map .other)
  | .text s => .ok (s.toList.map fun c => .other (.text (String.singleton c)))
  | v => .error (.notIterable v.typeName)

def ofValue : Value → Except PropertyError PropertyBag
  | .null => .ok empty
  | .fields entries => .ok (ofMapping (entries.map fun entry => (.text entry.1, entry.2)))
  | v => do
    let items ← elementsOf v
    ofElements items

/-- The bag that a caller means. -/
def ofSource : PropertySource → Except PropertyError PropertyBag
  | .nothing => .ok empty
  | .bag b => .ok b
  | .mapping entries => .ok (ofMapping entries)
  | .elements items => ofElements items
  | .value v => ofValue v

def describe (b : PropertyBag) : String :=
  "PropertyBag([" ++ ", ".intercalate (b.properties.map Property.describe) ++ "])"

theorem pairs_ofPairs (pairs : List (String × String)) : (ofPairs pairs).pairs = pairs := by
  induction pairs with
  | nil => rfl
  | cons entry pairs ih => simpa [ofPairs, PropertyBag.pairs, Property.pair?] using ih

theorem mem_pairs_iff {b : PropertyBag} {key value : String} :
    (key, value) ∈ b.pairs ↔ .pair key value ∈ b.properties := by
  unfold PropertyBag.pairs
  rw [List.mem_filterMap]
  constructor
  · rintro ⟨x, hx, hpair⟩
    cases x with
    | pair k v =>
      cases hpair
      exact hx
    | label name => contradiction
  · exact fun h => ⟨.pair key value, h, rfl⟩

end PropertyBag

end PathFilter
