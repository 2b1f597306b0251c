namespace PathFilter

/-- The parts of a text between the characters that satisfy `isCut`. There is always one part more
than there are such characters. -/
def cutAt (isCut : Char → Bool) : List Char → List (List Char)
  | [] => [[]]
  | c :: t =>
    if isCut c then [] :: cutAt isCut t
    else
      match cutAt isCut t with
      | [] => [[c]]
      | part :: parts => (c :: part) :: parts

/-- The parts of a text before and after the first `mark`. -/
def cutFirst? (mark : Char) : List Char → Option (List Char × List Char)
  | [] => none
  | c :: t =>
    if c = mark then some ([], t)
    else (cutFirst? mark t).map fun parts => (c :: parts.1, parts.2)

theorem cutAt_ne_nil (isCut : Char → Bool) (t : List Char) : cutAt isCut t ≠ [] := by
  cases t with
  | nil => simp [cutAt]
  | cons c t =>
    simp only [cutAt]
    split
    · simp
    · split <;> simp

/-- A character that is no cut joins the first part. -/
theorem cutAt_cons_of_not {isCut : Char → Bool} {c : Char} (h : isCut c = false) (t : List Char) :
    ∃ part parts, cutAt isCut t = part :: parts ∧ cutAt isCut (c :: t) = (c :: part) :: parts := by
  obtain ⟨part, parts, he⟩ := List.exists_cons_of_ne_nil (cutAt_ne_nil isCut t)
  exact ⟨part, parts, he, by simp [cutAt, h, he]⟩

theorem cutFirst?_eq_none_iff {mark : Char} {t : List Char} :
    cutFirst? mark t = none ↔ mark ∉ t := by
  induction t with
  | nil => simp [cutFirst?]
  | cons c t ih =>
    by_cases h : c = mark
    · simp [cutFirst?, h]
    · simp [cutFirst?, h, ih, Ne.symm h]

theorem cutFirst?_eq_some_iff {mark : Char} {t before after : List Char} :
    cutFirst? mark t = some (before, after) ↔ t = before ++ mark :: after ∧ mark ∉ before := by
  induction t generalizing before with
  | nil => simp [cutFirst?]
  | cons c t ih =>
    by_cases h : c = mark
    · subst h
      cases before with
      | nil => simp [cutFirst?, eq_comm]
      | cons d before =>
        simp only [cutFirst?, ↓reduceIte, Option.some.injEq, Prod.mk.injEq, List.cons_append,
          List.cons.injEq, List.mem_cons, not_or]
        constructor
        · exact fun he => absurd he.1 (by simp)
        · exact fun he => absurd he.1.1 he.2.1
    · cases before with
      | nil => simp [cutFirst?, h]
      | cons d before =>
        have hd : d = c → mark ≠ d := fun he => by rintro rfl; exact h he.symm
        simp only [cutFirst?, h, ↓reduceIte, Option.map_eq_some_iff, Prod.mk.injEq,
          List.cons.injEq, List.cons_append, List.mem_cons, not_or, Prod.exists]
        constructor
        · rintro ⟨front, rest, he, ⟨rfl, rfl⟩, rfl⟩
          obtain ⟨ht, hm⟩ := ih.mp he
          exact ⟨⟨rfl, ht⟩, Ne.symm h, hm⟩
        · rintro ⟨⟨rfl, ht⟩, _, hm⟩
          exact ⟨before, after, ih.mpr ⟨ht, hm⟩, ⟨rfl, rfl⟩, rfl⟩

end PathFilter
