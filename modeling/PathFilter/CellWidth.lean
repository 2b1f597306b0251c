import PathFilter.DoubleWidth
import PathFilter.ZeroWidth

namespace PathFilter

/-- The number of screen cells that a character takes. -/
def cellWidth (c : Char) : Nat :=
  if zeroWidth.hold c then 0 else if doubleWidth.hold c then 2 else 1

/-- Joins the characters on its sides into one. -/
def joiner : Char := '\u200d'

/-- Asks for the emoji form of the character before it. -/
def emojiSelector : Char := '\ufe0f'

namespace TextWidth

/-- The cells of a text that follows `last`, the last character with a width of its own. A joined
character takes no room. A selector widens such a character once. -/
def after : Option Char → List Char → Nat
  | _, [] => 0
  | last, c :: t =>
    if c = joiner then
      match t with
      | [] => 0
      | _ :: t => after last t
    else if c = emojiSelector then (if last.any emojiForms.hold then 1 else 0) + after none t
    else if cellWidth c = 0 then after last t
    else cellWidth c + after (some c) t

end TextWidth

/-- The number of screen cells that a text takes on one line. -/
def textWidth (t : List Char) : Nat := TextWidth.after none t

end PathFilter
