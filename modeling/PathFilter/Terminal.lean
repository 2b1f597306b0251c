import PathFilter.Grid
import PathFilter.Markup

namespace PathFilter

/-- What the output streams of a run are like. -/
structure Terminal where
  /-- the cells of a line -/
  width : Nat
  /-- whether tables are drawn with ASCII characters only -/
  ascii : Bool
  words : Vocabulary
  /-- why the output has no code for a text, if that is so -/
  refusal : String → Option String

namespace Terminal

/-- A terminal of some width that has a code for each text. -/
def ofWidth (width : Nat) : Terminal := ⟨width, false, .plain, fun _ => none⟩

/-- Every text can be written to the output. -/
def TakesAll (t : Terminal) : Prop := ∀ text, t.refusal text = none

/-- The box that is drawn where another is asked for. -/
def box (t : Terminal) (asked : Box) : Box := if t.ascii then .ascii else asked

end Terminal

end PathFilter
