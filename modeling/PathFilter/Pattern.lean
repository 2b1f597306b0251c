namespace PathFilter

/-- One unit of a value: a character that stands for itself, or any run of characters. -/
inductive Piece where
  | literal (c : Char)
  | wildcard
deriving DecidableEq, Repr

/-- What a value of the filter language means. It describes whole texts, never parts of them. -/
abbrev Pattern := List Piece

namespace Pattern

/-- Two wildcards in a row, which filters write `**`. -/
def everythingBelow : Pattern := [.wildcard, .wildcard]

/-- Some end of the text satisfies `holds`; the whole text and the empty text are ends of it. -/
def someSuffix (holds : List Char → Bool) : List Char → Bool
  | [] => holds []
  | c :: t => holds (c :: t) || someSuffix holds t

/-- The text is, in order, the literal characters and one run of characters for each wildcard.
A run may be empty and may hold line breaks. -/
def accepts : Pattern → List Char → Bool
  | [], t => t.isEmpty
  | .literal _ :: _, [] => false
  | .literal c :: p, d :: t => c == d && accepts p t
  | .wildcard :: p, t => someSuffix (accepts p) t

/-- The pattern that accepts one text only. -/
def ofText (t : List Char) : Pattern := t.map .literal

theorem someSuffix_iff {holds : List Char → Bool} {t : List Char} :
    someSuffix holds t = true ↔ ∃ run rest, t = run ++ rest ∧ holds rest = true := by
  induction t with
  | nil =>
    constructor
    · exact fun h => ⟨[], [], rfl, h⟩
    · rintro ⟨run, rest, he, h⟩
      obtain ⟨rfl, rfl⟩ := List.append_eq_nil_iff.mp he.symm
      exact h
  | cons c t ih =>
    simp only [someSuffix, Bool.or_eq_true, ih]
    constructor
    · rintro (h | ⟨run, rest, rfl, h⟩)
      · exact ⟨[], c :: t, rfl, h⟩
      · exact ⟨c :: run, rest, rfl, h⟩
    · rintro ⟨run, rest, he, h⟩
      cases run with
      | nil => exact Or.inl (he ▸ h)
      | cons d run =>
        obtain ⟨rfl, rfl⟩ := List.cons.inj he
        exact Or.inr ⟨run, rest, rfl, h⟩

end Pattern

end PathFilter
