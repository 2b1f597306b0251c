import PathFilter.Proofs.Acceptance
import PathFilter.Proofs.FirstViolation

namespace PathFilter

/-- How many brackets a mark opens; one that closes a bracket counts below zero. -/
def Mark.opens : Mark → Int
  | .openBracket => 1
  | .closeBracket => -1
  | _ => 0

theorem Mark.depthAfter_eq (m : Mark) (depth : Int) : m.depthAfter depth = depth + m.opens := by
  cases m <;> simp only [depthAfter, opens] <;> omega

/-- How many brackets are open after a row of lexemes. -/
def opened : List Lexeme → Int
  | [] => 0
  | .value _ :: l => opened l
  | .mark m :: l => m.opens + opened l

@[simp] theorem opened_nil : opened [] = 0 := rfl

@[simp] theorem opened_value (p : Pattern) (l : List Lexeme) : opened (.value p :: l) = opened l :=
  rfl

@[simp] theorem opened_mark (m : Mark) (l : List Lexeme) :
    opened (.mark m :: l) = m.opens + opened l := rfl

@[simp] theorem opened_append (l r : List Lexeme) : opened (l ++ r) = opened l + opened r := by
  induction l with
  | nil => simp
  | cons x l ih =>
    cases x with
    | value p => simpa using ih
    | mark m =>
      simp only [List.cons_append, opened_mark, ih]
      omega

theorem opened_intercalate {m : Mark} (flat : m.opens = 0) {ls : List (List Lexeme)}
    (each : ∀ l ∈ ls, opened l = 0) : opened ([.mark m].intercalate ls) = 0 := by
  induction ls with
  | nil => rfl
  | cons l ls ih =>
    obtain ⟨head, tail⟩ := List.forall_mem_cons.mp each
    cases ls with
    | nil => simpa using head
    | cons r ls =>
      have hrest := ih tail
      simp only [List.intercalate_cons_cons, opened_append, opened_mark, opened_nil]
      omega

theorem DerivesValue.opened_eq_zero {l : List Lexeme} {p : Pattern} (h : DerivesValue l p) :
    opened l = 0 := by
  induction h with
  | plain p => rfl
  | group _ ih => simp [Mark.opens, ih]

/-- The text of an expression closes the brackets that it opens. -/
theorem Derives.opened_eq_zero {place : Place} {level : Level} {l : List Lexeme} {e : Expr}
    (h : Derives place level l e) : opened l = 0 := by
  induction h with
  | or _ _ ih => exact opened_intercalate rfl (List.forall_mem_map.mpr ih)
  | and _ _ ih => exact opened_intercalate rfl (List.forall_mem_map.mpr ih)
  | not _ ih => simp [Mark.opens, ih]
  | group _ ih => simp [Mark.opens, ih]
  | value p => rfl
  | node p _ ih => simp [Mark.opens, ih]
  | presence key => exact key.opened_eq_zero
  | property key value => simp [Mark.opens, key.opened_eq_zero, value.opened_eq_zero]

theorem DerivesFilter.opened_eq_zero {l : List Lexeme} {segments : List Expr}
    (h : DerivesFilter l segments) : opened l = 0 := by
  obtain ⟨leading, trailing, -, each⟩ := h
  have hseparator : ∀ present, opened (optionalSeparator present) = 0 := by
    intro present
    cases present <;> rfl
  have hparts := opened_intercalate (m := .separator) rfl
    (List.forall_mem_map.mpr fun part hpart => (each part hpart).opened_eq_zero)
  simp [hseparator, hparts]

namespace Spells

variable {depth : Int} {l k : List Lexeme} {t u : List Char} {m : Mark}

/-- A mark ends any value before it, so what it begins can be written after any text. -/
theorem append (h : Spells depth l t) (hk : Spells (depth + opened l) (.mark m :: k) u) :
    Spells depth (l ++ .mark m :: k) (t ++ u) := by
  induction h with
  | nil depth => simpa using hk
  | @value depth p l t v nonempty text ended _ ih =>
    -- no second value follows, since a mark comes first in what is appended
    have ended' : startsWithValue (l ++ .mark m :: k) = false := by
      cases l with
      | nil => rfl
      | cons x l =>
        cases x with
        | value p => exact ended
        | mark n => rfl
    have hrest := Spells.value nonempty text ended' (ih hk)
    simpa using hrest
  | @mark depth n l v live _ ih =>
    refine .mark live (ih ?_)
    rw [Mark.depthAfter_eq, Int.add_assoc]
    exact hk

theorem head?_eq (h : Spells depth (.mark m :: l) t) : t.head? = some m.char := by
  cases h
  rfl

theorem getLast?_eq (h : Spells depth (l ++ [.mark m]) t) : t.getLast? = some m.char := by
  generalize hl : l ++ [.mark m] = k at h
  induction h generalizing l with
  | nil => simp at hl
  | value _ _ _ _ ih =>
    cases l with
    | nil => cases hl
    | cons x l =>
      have hu := ih (List.cons.inj hl).2
      simp [List.getLast?_append, hu]
  | @mark depth n k u _ rest ih =>
    cases l with
    | nil =>
      obtain ⟨hm, rfl⟩ := List.cons.inj hl
      cases hm
      cases rest
      rfl
    | cons x l =>
      have hu := ih (List.cons.inj hl).2
      simp [List.getLast?_cons, hu]

end Spells

theorem intercalate_append {x : Lexeme} {as bs : List (List Lexeme)} (ha : as ≠ []) (hb : bs ≠ []) :
    [x].intercalate (as ++ bs) = [x].intercalate as ++ x :: [x].intercalate bs := by
  induction as with
  | nil => contradiction
  | cons a as ih =>
    cases as with
    | nil => simp [List.intercalate_cons_of_ne_nil hb]
    | cons a' as =>
      have hrest := ih (by simp)
      simp only [List.cons_append, List.intercalate_cons_cons] at hrest ⊢
      simp [hrest]

/-- Two filters make up one if a separator stands between them and no other next to it. -/
theorem DerivesFilter.join {depth depth' : Int} {l k : List Lexeme} {xs ys : List Expr}
    {t u : List Char} (h : DerivesFilter l xs) (hk : DerivesFilter k ys)
    (spelled : Spells depth l t) (spelled' : Spells depth' k u)
    (ended : t.getLast? ≠ some '/') (started : u.head? ≠ some '/') :
    DerivesFilter (l ++ .mark .separator :: k) (xs ++ ys) := by
  obtain ⟨leading, trailing, nonempty, each⟩ := h
  obtain ⟨leading', trailing', nonempty', each'⟩ := hk
  rename_i parts parts'
  cases trailing with
  -- a separator next to the joint would be written at the end of `t` or at the start of `u`
  | true => exact absurd spelled.getLast?_eq ended
  | false =>
    cases leading' with
    | true => exact absurd spelled'.head?_eq started
    | false =>
      have hjoined := @DerivesFilter.segments leading trailing' (parts ++ parts')
        (by simp [nonempty]) (List.forall_mem_append.mpr ⟨each, each'⟩)
      rw [List.map_append, List.map_append,
        intercalate_append (by simpa using nonempty) (by simpa using nonempty')] at hjoined
      simpa [optionalSeparator] using hjoined

/-- No value `**` stands for the text of a segment, by itself, below operators or before a bracket. -/
def NothingBelow (sites : List Site) : Prop :=
  ∀ s ∈ sites, s.place = .segment → s.expr ≠ .value .everythingBelow

instance (sites : List Site) : Decidable (NothingBelow sites) :=
  inferInstanceAs (Decidable (∀ s ∈ sites, s.place = .segment → s.expr ≠ .value .everythingBelow))

theorem Mask.FitsSegment.inner {lastSegment : Bool} {m : Mask} (h : m.FitsSegment lastSegment)
    (below : NothingBelow [⟨lastSegment, .segment, .value m⟩]) : m.FitsSegment false := by
  refine ⟨h.whole, ?_⟩
  rintro rfl
  exact absurd rfl (below _ (List.mem_singleton_self _) rfl)

/-- A segment without `**` may stand before others. -/
theorem Expr.Valid.inner {lastSegment : Bool} {place : Place} {e : Expr}
    (h : e.Valid lastSegment place) (below : NothingBelow (sites lastSegment place e)) :
    e.Valid false place := by
  induction h with
  | value fits => exact .value (fits.inner below)
  | presence => exact .presence _ _
  | @apply lastSegment place op es count _ ih =>
    refine .apply count fun e he => ih e he fun s hs => below s ?_
    rw [sites, operandSites_eq_flatMap]
    exact List.mem_cons_of_mem _ (List.mem_flatMap.mpr ⟨e, he, hs⟩)
  | property => exact .property _ _ _
  | @node lastSegment m e fits filter _ =>
    refine .node (fits.inner fun s hs => below s ?_) filter
    rw [sites]
    exact List.mem_cons_of_mem _ (List.mem_cons.mpr (.inl (List.mem_singleton.mp hs)))
  | always => exact .always _ _

theorem ValidSegments.append {xs ys : List Expr} (h : ValidSegments xs) (hy : ValidSegments ys)
    (nonempty : ys ≠ []) (below : NothingBelow (segmentSites xs)) : ValidSegments (xs ++ ys) := by
  induction h with
  | nil => exact hy
  | @cons e es head _ ih =>
    obtain ⟨hhead, htail⟩ := List.forall_mem_append.mp below
    have inner : e.Valid (es ++ ys).isEmpty .segment := by
      have hne : (es ++ ys).isEmpty = false := by simp [nonempty]
      rw [hne]
      exact head.inner hhead
    exact .cons inner (ih htail)

/-- The segments of two filters with a separator between them are those of the first and then those
of the second. -/
theorem parseFilter_join {f g : String} {xs ys : List Expr} (hf : parseFilter f = .ok xs)
    (hg : parseFilter g = .ok ys) (ended : f.toList.getLast? ≠ some '/')
    (started : g.toList.head? ≠ some '/') (below : NothingBelow (segmentSites xs)) :
    parseFilter (f ++ "/" ++ g) = .ok (xs ++ ys) := by
  obtain ⟨l, hspells, hderives, hvalid⟩ := parseFilter_iff_spells.mp hf
  obtain ⟨k, hspells', hderives', hvalid'⟩ := parseFilter_iff_spells.mp hg
  have nonempty : ys ≠ [] := by
    obtain ⟨_, _, hparts, _⟩ := hderives'
    simpa using hparts
  refine parseFilter_iff_spells.mpr ⟨l ++ .mark .separator :: k, ?_,
    hderives.join hderives' hspells hspells' ended started, hvalid.append hvalid' nonempty below⟩
  have hmark : Spells (0 + opened l) (.mark .separator :: k) ('/' :: g.toList) := by
    rw [hderives.opened_eq_zero]
    exact .mark (fun _ => by decide) hspells'
  simpa using hspells.append hmark

end PathFilter
