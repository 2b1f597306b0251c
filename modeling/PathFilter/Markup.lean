import PathFilter.Cut
import PathFilter.Lines

namespace PathFilter

/-- The words that markup gives a meaning: the names of styles, of which some are names of one
style, and the codes of emoji. -/
structure Vocabulary where
  /-- one name for all names of a style -/
  style : List Char → String
  /-- a text with emoji in place of their codes -/
  emoji : List Char → List Char

namespace Vocabulary

/-- No style has two names, and there are no emoji. -/
def plain : Vocabulary := ⟨String.ofList, id⟩

end Vocabulary

/-- A fault in the tags of a text. -/
inductive MarkupError where
  /-- a closing tag, as it is written, that closes none of the open tags -/
  | unopened (tag : List Char) (pos : Nat)
  /-- a tag that closes the last open tag when none is open -/
  | nothingOpen (pos : Nat)
deriving DecidableEq, Repr

namespace MarkupError

def message : MarkupError → String
  | .unopened tag pos =>
    "closing tag '" ++ String.ofList tag ++ "' at position " ++ toString pos ++
      " doesn't match any open tag"
  | .nothingOpen pos =>
    "closing tag '[/]' at position " ++ toString pos ++ " has nothing to close"

end MarkupError

/-- The first tag of a text: what stands before it, the number of backslashes right before its
bracket, what stands between its brackets, and what stands after it. -/
structure TagFound where
  before : List Char
  backslashes : Nat
  body : List Char
  rest : List Char
deriving DecidableEq, Repr

namespace Markup

/-- What stands before the closing bracket, and what after it. No other bracket opens in between. -/
def bodyEnd? : List Char → Option (List Char × List Char)
  | [] => none
  | c :: t =>
    if c = ']' then some ([], t)
    else if c = '[' then none
    else (bodyEnd? t).map fun parts => (c :: parts.1, parts.2)

/-- The characters with which a tag may begin. -/
def opensTag (c : Char) : Bool := c.isLower || ['#', '/', '@'].contains c

/-- Reads a tag with the backslashes before it. -/
def tag? (t : List Char) : Option TagFound :=
  match t.dropWhile (· == '\\') with
  | '[' :: c :: rest =>
    if opensTag c then
      (bodyEnd? rest).map fun parts =>
        ⟨[], (t.takeWhile (· == '\\')).length, c :: parts.1, parts.2⟩
    else none
  | _ => none

def firstTag? : List Char → Option TagFound
  | [] => none
  | c :: t =>
    match tag? (c :: t) with
    | some found => some found
    | none => (firstTag? t).map fun found => { found with before := c :: found.before }

/-- Drops the backslash before a bracket. -/
def bare : List Char → List Char
  | [] => []
  | '\\' :: '[' :: t => '[' :: bare t
  | c :: t => c :: bare t

/-- A text between tags as it is shown. -/
def shown (words : Vocabulary) (t : List Char) : List Char := words.emoji (bare t)

/-- The name of a tag: its body up to an equals sign. -/
def nameOf (body : List Char) : List Char :=
  match cutFirst? '=' body with
  | some (name, _) => name
  | none => body

/-- The open tags after one more tag. The last one that is open stands in front. -/
def follow (words : Vocabulary) (opened : List String) (pos : Nat) (body : List Char) :
    Except MarkupError (List String) :=
  match nameOf body with
  | '/' :: name =>
    if (strip name).isEmpty then
      match opened with
      | [] => .error (.nothingOpen pos)
      | _ :: opened => .ok opened
    else if opened.contains (words.style (strip name)) then
      .ok (opened.erase (words.style (strip name)))
    else .error (.unopened ('[' :: body ++ [']']) pos)
  | name => .ok (words.style name :: opened)

/-- Reads on at index `pos`. Of the backslashes before a tag each pair is one backslash, and one
without a partner makes the tag plain text. Each tag takes characters, so the length of the text
is enough of a budget. -/
def reveal (words : Vocabulary) :
    Nat → Nat → List String → List Char → Except MarkupError (List Char)
  | 0, _, _, t => .ok (shown words t)
  | budget + 1, pos, opened, t =>
    match firstTag? t with
    | none => .ok (shown words t)
    | some found => do
      let pairs := found.backslashes / 2
      let isPlain := found.backslashes % 2 == 1
      let opened ←
        if isPlain then pure opened
        else follow words opened (pos + found.before.length + 2 * pairs) found.body
      let rest ← reveal words budget (pos + (t.length - found.rest.length)) opened found.rest
      pure (shown words found.before ++ List.replicate pairs '\\' ++
        (if isPlain then shown words ('[' :: found.body ++ [']']) else []) ++ rest)

end Markup

/-- The text that is left of a text with tags and codes of emoji. -/
def withoutMarkup (words : Vocabulary) (t : List Char) : Except MarkupError (List Char) :=
  Markup.reveal words t.length 0 [] t

end PathFilter
