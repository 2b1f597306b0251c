import PathFilter.ScreenLines

namespace PathFilter

/-- The characters of a horizontal line: its ends, its stroke, and where a column ends. -/
structure Border where
  left : Char
  stroke : Char
  middle : Char
  right : Char
deriving DecidableEq, Repr

/-- The lines around and between the cells of a table. -/
structure Box where
  top : Border
  headBar : Char
  belowHead : Border
  bodyBar : Char
  bottom : Border
deriving DecidableEq, Repr

namespace Box

def heavyHead : Box where
  top := ⟨'┏', '━', '┳', '┓'⟩
  headBar := '┃'
  belowHead := ⟨'┡', '━', '╇', '┩'⟩
  bodyBar := '│'
  bottom := ⟨'└', '─', '┴', '┘'⟩

def rounded : Box where
  top := ⟨'╭', '─', '┬', '╮'⟩
  headBar := '│'
  belowHead := ⟨'├', '─', '┼', '┤'⟩
  bodyBar := '│'
  bottom := ⟨'╰', '─', '┴', '╯'⟩

def ascii : Box where
  top := ⟨'+', '-', '-', '+'⟩
  headBar := '|'
  belowHead := ⟨'|', '-', '+', '|'⟩
  bodyBar := '|'
  bottom := ⟨'+', '-', '-', '+'⟩

end Box

structure Column where
  title : String
  alignRight : Bool

/-- How the cells of a column are laid out, and how many screen cells wide. -/
structure Shape where
  alignRight : Bool
  width : Nat

namespace Grid

/-- A line made as wide as its column by blanks on one side. -/
def fit (overflow : Overflow) (shape : Shape) (line : List Char) : List Char :=
  if shape.alignRight then
    let line := ScreenLines.clip overflow shape.width (dropEndWhile isBlank line)
    List.replicate (shape.width - textWidth line) ' ' ++ line
  else ScreenLines.pad shape.width (ScreenLines.clip overflow shape.width line)

/-- The blanks on both sides of a cell. -/
def margin : Nat := 2

/-- A horizontal line under or above cells with a blank on each side. -/
def border (b : Border) (widths : List Nat) : List Char :=
  b.left :: [b.middle].intercalate (widths.map fun w => List.replicate (w + margin) b.stroke) ++
    [b.right]

/-- One line of cells between vertical lines. -/
def cellLine (bar : Char) (cells : List (List Char)) : List Char :=
  bar :: (cells.flatMap fun t => ' ' :: t ++ [' ', bar])

/-- A row as high as its highest cell. -/
def row (bar : Char) (overflow : Overflow) (shapes : List Shape) (texts : List (List Char)) :
    List (List Char) :=
  let cells := (shapes.zip texts).map fun entry =>
    (entry.1, ScreenLines.ofText overflow entry.1.width entry.2)
  let height := (cells.map fun entry => entry.2.length).foldl max 0
  (List.range height).map fun i =>
    cellLine bar (cells.map fun entry => fit overflow entry.1 (entry.2.getD i []))

/-- A share in `total` for one of `parts`, where a half goes to the even neighbour. -/
def share (total parts : Nat) : Nat :=
  let whole := total / parts
  let rest := 2 * (total % parts)
  if rest < parts ∨ (rest = parts ∧ whole % 2 = 0) then whole else whole + 1

/-- Takes `excess` from the `parts` columns that are `widest` wide in equal shares, but from none of
them more than `most`. -/
def shrink (widest most : Nat) : Nat → Nat → List Nat → List Nat
  | _, _, [] => []
  | excess, parts, w :: widths =>
    if w = widest then
      let cut := min most (share excess parts)
      (w - cut) :: shrink widest most (excess - cut) (parts - 1) widths
    else w :: shrink widest most excess parts widths

/-- Makes columns fit into `room` together. The widest are made narrower until they are as wide as
the next, and so on. Each round takes one cell at least, so the sum of the widths is enough of a
budget. -/
def shrinkTo (room : Nat) : Nat → List Nat → List Nat
  | 0, widths => widths
  | budget + 1, widths =>
    let excess := widths.sum - room
    if excess = 0 then widths
    else
      let widest := widths.foldl max 0
      let next := (widths.filter (· ≠ widest)).foldl max 0
      shrinkTo room budget
        (shrink widest (min excess (widest - next)) excess (widths.count widest) widths)

/-- The widths of columns on a screen whose cells ask for `rooms`. -/
def columnWidths (screen : Nat) (rooms : List Nat) : List Nat :=
  let room := screen - (rooms.length + 1)
  let widths := rooms.map fun w => min (w + margin) room
  (shrinkTo room (widths.foldl (· + ·) 0) widths).map (· - margin)

/-- A table, each column as wide as its widest cell if the screen has room for that. -/
def table (box : Box) (screen : Nat) (columns : List Column) (rows : List (List (List Char))) :
    List (List Char) :=
  let titles := columns.map fun column => column.title.toList
  let rooms := (List.range columns.length).map fun i =>
    ((titles :: rows).map fun texts => ScreenLines.room (texts.getD i [])).foldl max 0
  let widths := columnWidths screen rooms
  let shapes := (columns.zip widths).map fun entry => Shape.mk entry.1.alignRight entry.2
  [border box.top widths] ++ row box.headBar .ellipsis shapes titles ++
    [border box.belowHead widths] ++ rows.flatMap (row box.bodyBar .ellipsis shapes) ++
    [border box.bottom widths]

/-- A box around the lines of a text. -/
def panel (box : Box) (screen : Nat) (t : List Char) : List (List Char) :=
  let width := min (ScreenLines.room t) (screen - (margin + 2))
  [border box.top [width]] ++ row box.bodyBar .fold [⟨false, width⟩] [t] ++
    [border box.bottom [width]]

end Grid

end PathFilter
