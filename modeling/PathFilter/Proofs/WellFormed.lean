import PathFilter.Proofs.Acceptance

namespace PathFilter

/-- The value of a filter: a row of wildcards and characters, and not the empty one. -/
def Mask.Spelled (m : Mask) : Prop := ∃ p : Pattern, p ≠ [] ∧ m = .ofPattern p

/-- The trees that filters spell, in a segment and inside a bracket. -/
inductive Expr.WellFormed : Bool → Place → Expr → Prop
  | value {lastSegment : Bool} {m : Mask} (spelled : m.Spelled) (fits : m.FitsSegment lastSegment) :
      WellFormed lastSegment .segment (.value m)
  | presence {lastSegment : Bool} {m : Mask} (spelled : m.Spelled) :
      WellFormed lastSegment .bracket (.value m)
  | property {lastSegment : Bool} {k v : Mask} (key : k.Spelled) (value : v.Spelled) :
      WellFormed lastSegment .bracket (.property k v)
  | node {lastSegment : Bool} {m : Mask} {e : Expr} (spelled : m.Spelled)
      (fits : m.FitsSegment lastSegment) (filter : WellFormed true .bracket e) :
      WellFormed lastSegment .segment (.node m e)
  | apply {lastSegment : Bool} {place : Place} {op : Operator} {es : List Expr}
      (count : op.admits es.length = true) (each : ∀ e ∈ es, WellFormed lastSegment place e) :
      WellFormed lastSegment place (.apply op es)

/-- One segment or more. Only the last may hold the value `**`. -/
inductive WellFormedSegments : List Expr → Prop
  | last {e : Expr} (h : e.WellFormed true .segment) : WellFormedSegments [e]
  | cons {e : Expr} {es : List Expr} (head : e.WellFormed false .segment)
      (tail : WellFormedSegments es) : WellFormedSegments (e :: es)

namespace Expr

theorem WellFormed.valid {lastSegment : Bool} {place : Place} {e : Expr}
    (h : e.WellFormed lastSegment place) : e.Valid lastSegment place := by
  induction h with
  | value _ fits => exact .value fits
  | presence => exact .presence _ _
  | property => exact .property _ _ _
  | node _ fits _ ih => exact .node fits ih
  | apply count _ ih => exact .apply count ih

theorem WellFormed.chain {lastSegment : Bool} {place : Place} {op : Operator} {es : List Expr}
    (hop : op ≠ .not) (nonempty : es ≠ []) (each : ∀ e ∈ es, e.WellFormed lastSegment place) :
    (chain op es).WellFormed lastSegment place := by
  match es with
  | [] => contradiction
  | [e] => exact each e (by simp)
  | _ :: _ :: _ => exact .apply (by cases op <;> simp_all [Operator.admits]) each

theorem Valid.of_chain {lastSegment : Bool} {place : Place} {op : Operator} {es : List Expr}
    (h : (chain op es).Valid lastSegment place) : ∀ e ∈ es, e.Valid lastSegment place := by
  match es with
  | [] => simp
  | [e] => simpa using h
  | _ :: _ :: _ =>
    cases h with
    | apply _ each => exact each

end Expr

theorem WellFormedSegments.valid {segments : List Expr} (h : WellFormedSegments segments) :
    ValidSegments segments := by
  induction h with
  | last h => exact .cons h.valid .nil
  | @cons e es head tail ih =>
    have hes : es.isEmpty = false := by cases tail <;> rfl
    exact .cons (by rw [hes]; exact head.valid) ih

theorem ValidSegments.wellFormed {segments : List Expr} (h : ValidSegments segments)
    (nonempty : segments ≠ [])
    (each : ∀ e ∈ segments, ∀ lastSegment, e.Valid lastSegment .segment →
      e.WellFormed lastSegment .segment) : WellFormedSegments segments := by
  induction h with
  | nil => contradiction
  | @cons e es head tail ih =>
    obtain ⟨first, rest⟩ := List.forall_mem_cons.mp each
    cases es with
    | nil => exact .last (first true head)
    | cons e' es => exact .cons (first false head) (ih (by simp) rest)

theorem Spells.ne_nil {depth : Int} {l : List Lexeme} {t : List Char} (h : Spells depth l t) :
    ∀ p ∈ patternsOf l, p ≠ [] := by
  induction h with
  | nil => simp
  | value nonempty _ _ _ ih => exact List.forall_mem_cons.mpr ⟨nonempty, ih⟩
  | mark _ _ ih => exact ih

namespace Derives

theorem ne_nil_of_part {m : Mark} {parts : List (List Lexeme × Expr)}
    (h : ∀ p ∈ patternsOf ([.mark m].intercalate (parts.map Prod.fst)), p ≠ [])
    {part : List Lexeme × Expr} (hpart : part ∈ parts) : ∀ p ∈ patternsOf part.1, p ≠ [] := by
  intro p hp
  apply h
  rw [patternsOf_intercalate]
  exact List.mem_flatMap.mpr ⟨part.1, List.mem_map_of_mem hpart, hp⟩

theorem wellFormed_chain {op : Operator} {m : Mark} {parts : List (List Lexeme × Expr)}
    {lastSegment : Bool} {place : Place} (hop : op ≠ .not) (nonempty : parts ≠ [])
    (each : ∀ part ∈ parts, (∀ p ∈ patternsOf part.1, p ≠ []) → part.2.Valid lastSegment place →
      part.2.WellFormed lastSegment place)
    (values : ∀ p ∈ patternsOf ([.mark m].intercalate (parts.map Prod.fst)), p ≠ [])
    (valid : (Expr.chain op (parts.map Prod.snd)).Valid lastSegment place) :
    (Expr.chain op (parts.map Prod.snd)).WellFormed lastSegment place := by
  refine .chain hop (by simpa using nonempty) (List.forall_mem_map.mpr fun part hpart => ?_)
  exact each part hpart (ne_nil_of_part values hpart)
    (valid.of_chain part.2 (List.mem_map_of_mem hpart))

/-- What the grammar leaves open, the check of the tree settles. -/
theorem wellFormed {place : Place} {level : Level} {l : List Lexeme} {e : Expr}
    (h : Derives place level l e) (values : ∀ p ∈ patternsOf l, p ≠ []) {lastSegment : Bool}
    (valid : e.Valid lastSegment place) : e.WellFormed lastSegment place := by
  induction h generalizing lastSegment with
  | or nonempty _ ih =>
    exact wellFormed_chain (by simp) nonempty (fun part hpart hp => ih part hpart hp) values valid
  | and nonempty _ ih =>
    exact wellFormed_chain (by simp) nonempty (fun part hpart hp => ih part hpart hp) values valid
  | not _ ih =>
    cases valid with
    | apply count each =>
      refine .apply count (List.forall_mem_singleton.mpr ?_)
      exact ih (by simpa using values) (each _ (by simp))
  | group _ ih => exact ih (by simpa using values) valid
  | value p =>
    cases valid with
    | value fits => exact .value ⟨p, values p (by simp), rfl⟩ fits
  | node p _ ih =>
    simp only [patternsOf_value, patternsOf_mark, patternsOf_append, patternsOf_nil,
      List.append_nil, List.forall_mem_cons] at values
    cases valid with
    | node fits filter => exact .node ⟨p, values.1, rfl⟩ fits (ih values.2 filter)
  | @presence l p key => exact .presence ⟨p, values p (by simp [key.patternsOf_eq]), rfl⟩
  | @property l r p q key value =>
    exact .property ⟨p, values p (by simp [key.patternsOf_eq]), rfl⟩
      ⟨q, values q (by simp [value.patternsOf_eq]), rfl⟩

end Derives

theorem wellFormed_of_parseFilter {f : String} {segments : List Expr}
    (h : parseFilter f = .ok segments) : WellFormedSegments segments := by
  obtain ⟨l, hspells, hderives, hvalid⟩ := parseFilter_iff_spells.mp h
  obtain ⟨leading, trailing, nonempty, each⟩ := hderives
  rename_i parts
  have values := hspells.ne_nil
  refine hvalid.wellFormed (by simpa using nonempty) (List.forall_mem_map.mpr ?_)
  intro part hpart lastSegment valid
  refine (each part hpart).wellFormed (@Derives.ne_nil_of_part .separator _ ?_ _ hpart) valid
  intro p hp
  exact values p (by simp [hp])

end PathFilter
