namespace PathFilter

/-- The number of characters with which both words start. -/
def commonStart : List Char → List Char → Nat
  | c :: s, d :: t => if c = d then commonStart s t + 1 else 0
  | _, _ => 0

/-- A run of characters that stands in two words: where it begins in each, and how long it is. -/
structure SharedRun where
  left : Nat
  right : Nat
  length : Nat
deriving DecidableEq, Repr

namespace SharedRun

def longer (best run : SharedRun) : SharedRun := if best.length < run.length then run else best

/-- The longest run of two words. Of several it is the one that begins first in the left word, and
then the one that begins first in the right word. -/
def longest (s t : List Char) : SharedRun :=
  (List.range s.length).foldl (fun best i =>
    (List.range t.length).foldl (fun best j =>
      best.longer ⟨i, j, commonStart (s.drop i) (t.drop j)⟩) best) ⟨0, 0, 0⟩

end SharedRun

/-- The number of characters in the longest run of two words, and in the longest runs of what is
left of it on both sides and right of it on both sides, and so on. Each run takes a character at
least from the left word, so the length of that word is enough of a budget. -/
def sharedCharacters : Nat → List Char → List Char → Nat
  | 0, _, _ => 0
  | budget + 1, s, t =>
    let run := SharedRun.longest s t
    if run.length = 0 then 0
    else
      sharedCharacters budget (s.take run.left) (t.take run.right) + run.length +
        sharedCharacters budget (s.drop (run.left + run.length)) (t.drop (run.right + run.length))

/-- How alike a name is to a word: the characters that they share, of all that they have. -/
structure Similarity where
  name : String
  shared : Nat
  total : Nat
deriving DecidableEq, Repr

namespace Similarity

def ofWords (name word : String) : Similarity :=
  let s := name.toList
  let t := word.toList
  ⟨name, sharedCharacters s.length s t, s.length + t.length⟩

/-- Six characters in ten are shared; those of either word count. -/
def isClose (x : Similarity) : Bool := 3 * x.total ≤ 10 * x.shared

/-- The more alike name comes first, and of names as much alike the later in the alphabet. -/
def comesBefore (x y : Similarity) : Bool :=
  if x.shared * y.total = y.shared * x.total then y.name ≤ x.name
  else y.shared * x.total < x.shared * y.total

end Similarity

/-- The names that a misspelled word may stand for, at most three, in alphabetical order. -/
def closeNames (names : List String) (word : String) : List String :=
  let close := (names.map fun name => Similarity.ofWords name word).filter Similarity.isClose
  (((close.mergeSort Similarity.comesBefore).take 3).map Similarity.name).mergeSort fun x y => x ≤ y

end PathFilter
