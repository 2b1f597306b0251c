import PathFilter.Cut

namespace PathFilter

/-- White space of all scripts: blanks, line and paragraph ends, and the separators U+001C to
U+001F. -/
def isBlank (c : Char) : Bool :=
  let n := c.toNat
  (0x09 ≤ n && n ≤ 0x0D) || (0x1C ≤ n && n ≤ 0x20) || n == 0x85 || n == 0xA0 || n == 0x1680 ||
    (0x2000 ≤ n && n ≤ 0x200A) || n == 0x2028 || n == 0x2029 || n == 0x202F || n == 0x205F ||
    n == 0x3000

/-- Drops the characters at the end of a list that satisfy `p`. -/
def dropEndWhile (p : Char → Bool) : List Char → List Char
  | [] => []
  | c :: t =>
    match dropEndWhile p t with
    | [] => if p c then [] else [c]
    | rest => c :: rest

/-- A text without the white space around it. -/
def strip (t : List Char) : List Char := dropEndWhile isBlank (t.dropWhile isBlank)

/-- Ends a line. A carriage return with a line feed after it leaves an empty line between them. -/
def isLineEnd (c : Char) : Bool := c == '\n' || c == '\r'

/-- The lines of a text that hold more than white space, stripped of what surrounds them. -/
def strippedLines (t : List Char) : List (List Char) :=
  ((cutAt isLineEnd t).map strip).filter fun line => !line.isEmpty

section

variable {p : Char → Bool} {t u : List Char}

theorem dropEndWhile_append_of_all (h : ∀ c ∈ u, p c = true) (t : List Char) :
    dropEndWhile p (t ++ u) = dropEndWhile p t := by
  induction t with
  | nil =>
    induction u with
    | nil => rfl
    | cons c u ih =>
      obtain ⟨hc, hu⟩ := List.forall_mem_cons.mp h
      have hrest : dropEndWhile p u = [] := ih hu
      simp [dropEndWhile, hrest, hc]
  | cons c t ih => simp only [List.cons_append, dropEndWhile, ih]

theorem dropEndWhile_eq_self (h : ∀ c, t.getLast? = some c → p c = false) :
    dropEndWhile p t = t := by
  induction t with
  | nil => rfl
  | cons c t ih =>
    cases t with
    | nil => simp [dropEndWhile, h c rfl]
    | cons d t =>
      have hrest := ih fun e he => h e (by rwa [List.getLast?_cons_cons])
      rw [dropEndWhile, hrest]

end

end PathFilter
