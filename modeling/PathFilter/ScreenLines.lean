import PathFilter.CellWidth
import PathFilter.Cut
import PathFilter.Lines

namespace PathFilter

/-- What becomes of a word that is wider than a line. -/
inductive Overflow where
  /-- it goes on in the next line -/
  | fold
  /-- it is cut, with an ellipsis in its last cell -/
  | ellipsis
deriving DecidableEq, Repr

namespace ScreenLines

/-- Bells, backspaces and the characters that move to another line or page are never shown. -/
def isDropped (c : Char) : Bool :=
  ['\x07', '\x08', '\x0b', '\x0c', '\r'].contains c

def visible (t : List Char) : List Char := t.filter fun c => !isDropped c

/-- Joins the parts between the tabs of a line that begins at `column`. A tab is one blank at least,
and reaches up to the next multiple of eight cells. -/
def fillTabs : Nat → List (List Char) → List Char
  | _, [] => []
  | _, [part] => part
  | column, part :: parts =>
    let reached := column + textWidth (part ++ [' '])
    let stop := (reached + 7) / 8 * 8
    part ++ ' ' :: List.replicate (stop - reached) ' ' ++ fillTabs stop parts

def expandTabs (line : List Char) : List Char := fillTabs 0 (cutAt (· == '\t') line)

/-- Puts a character in front of the first part. -/
def attach (c : Char) : List (List Char) → List (List Char)
  | [] => [[c]]
  | part :: parts => (c :: part) :: parts

/-- The words of a line that starts with one, each with the blanks after it. -/
def wordsFrom : List Char → List (List Char)
  | [] => []
  | [c] => [[c]]
  | c :: d :: t =>
    if isBlank c && !isBlank d then [c] :: wordsFrom (d :: t) else attach c (wordsFrom (d :: t))

/-- The words of a line. Blanks at its start belong to the first word. -/
def words (line : List Char) : List (List Char) :=
  match wordsFrom (line.dropWhile isBlank) with
  | [] => [line]
  | word :: rest => (line.takeWhile isBlank ++ word) :: rest

/-- The pieces of a word, each as long as fits into `width` cells, of which `used` are taken. -/
def chop (width : Nat) : Nat → List Char → List (List Char)
  | _, [] => [[]]
  | used, c :: t =>
    if used + cellWidth c ≤ width then attach c (chop width (used + cellWidth c) t)
    else [] :: attach c (chop width (cellWidth c) t)

/-- Lines in the making: those that are done, with the last in front, and the one that is filled. -/
structure Filling where
  done : List (List Char)
  current : List Char
  column : Nat

namespace Filling

def startLine (f : Filling) (t : List Char) : Filling :=
  ⟨if f.done.isEmpty && f.current.isEmpty then [] else f.current :: f.done, t, textWidth t⟩

/-- Puts a word into the line if it fits without the blanks after it, and else into the next. -/
def place (overflow : Overflow) (width : Nat) (f : Filling) (word : List Char) : Filling :=
  let needed := textWidth (dropEndWhile isBlank word)
  if f.column + needed ≤ width then
    { f with current := f.current ++ word, column := f.column + textWidth word }
  else if width < needed then
    match overflow with
    | .fold => (chop width 0 word).foldl startLine f
    | .ellipsis => f.startLine word
  else if f.column = 0 then { f with current := f.current ++ word }
  else f.startLine word

def lines (f : Filling) : List (List Char) := f.done.reverse ++ [f.current]

end Filling

/-- Drops blanks from the end of a line as long as it has more than `size` characters. -/
def dropExcess (size : Nat) (line : List Char) : List Char :=
  let blanks := line.length - (dropEndWhile isBlank line).length
  line.take (line.length - min (line.length - size) blanks)

/-- Breaks one line between words. -/
def breakLine (overflow : Overflow) (width : Nat) (line : List Char) : List (List Char) :=
  (((words line).foldl (Filling.place overflow width) ⟨[], [], 0⟩).lines).map (dropExcess width)

/-- The start of a text that fits into a number of cells. -/
def takeCells : Nat → List Char → List Char
  | _, [] => []
  | cells, c :: t => if cellWidth c ≤ cells then c :: takeCells (cells - cellWidth c) t else []

/-- A text with blanks up to a number of cells. -/
def pad (cells : Nat) (t : List Char) : List Char :=
  t ++ List.replicate (cells - textWidth t) ' '

/-- Cuts a line that is still too wide. -/
def clip (overflow : Overflow) (width : Nat) (line : List Char) : List Char :=
  if textWidth line ≤ width then line
  else
    match overflow with
    | .fold => pad width (takeCells width line)
    | .ellipsis => pad (width - 1) (takeCells (width - 1) line) ++ ['…']

/-- A text on lines of `width` cells. -/
def ofText (overflow : Overflow) (width : Nat) (t : List Char) : List (List Char) :=
  (cutAt (· == '\n') (visible t)).flatMap fun line => breakLine overflow width (expandTabs line)

/-- Ends a line where the room for a text is measured. -/
def isBreak (c : Char) : Bool :=
  let n := c.toNat
  (0x0A ≤ n && n ≤ 0x0D) || (0x1C ≤ n && n ≤ 0x1E) || n == 0x85 || n == 0x2028 || n == 0x2029

/-- The room that a text asks for: its widest line, in which tabs take none. -/
def room (t : List Char) : Nat := ((cutAt isBreak (visible t)).map textWidth).foldl max 0

end ScreenLines

end PathFilter
