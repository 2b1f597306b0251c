import PathFilter.Validation
import PathFilter.Proofs.Grammar

namespace PathFilter

def Place.inBracket : Place → Bool
  | .segment => false
  | .bracket => true

structure Mask.FitsSegment (lastSegment : Bool) (m : Mask) : Prop where
  whole : '/' ∉ m.text
  below : m = .everythingBelow → lastSegment = true

/-- The trees that break no rule where they stand. -/
inductive Expr.Valid : Bool → Place → Expr → Prop
  | value {lastSegment : Bool} {m : Mask} (fits : m.FitsSegment lastSegment) :
      Valid lastSegment .segment (.value m)
  | presence (lastSegment : Bool) (m : Mask) : Valid lastSegment .bracket (.value m)
  | apply {lastSegment : Bool} {place : Place} {op : Operator} {es : List Expr}
      (count : op.admits es.length = true) (each : ∀ e ∈ es, Valid lastSegment place e) :
      Valid lastSegment place (.apply op es)
  | property (lastSegment : Bool) (k v : Mask) : Valid lastSegment .bracket (.property k v)
  | node {lastSegment : Bool} {m : Mask} {e : Expr} (fits : m.FitsSegment lastSegment)
      (filter : Valid true .bracket e) : Valid lastSegment .segment (.node m e)
  | always (lastSegment : Bool) (place : Place) : Valid lastSegment place .always

/-- Only the last segment may hold the value `**`. -/
inductive ValidSegments : List Expr → Prop
  | nil : ValidSegments []
  | cons {e : Expr} {es : List Expr} (head : e.Valid es.isEmpty .segment)
      (tail : ValidSegments es) : ValidSegments (e :: es)

theorem bind_eq_ok_iff {ε α β : Type} {x : Except ε α} {f : α → Except ε β} {b : β} :
    (x >>= f) = .ok b ↔ ∃ a, x = .ok a ∧ f a = .ok b := by
  cases x <;> simp [bind, Except.bind]

theorem mapError_eq_ok_iff {ε ε' α : Type} {f : ε → ε'} {x : Except ε α} {a : α} :
    x.mapError f = .ok a ↔ x = .ok a := by
  cases x <;> simp [Except.mapError]

theorem ite_error_eq_ok_iff {ε α : Type} {c : Prop} [Decidable c] {e : ε} {x : Except ε α} {a : α} :
    (if c then .error e else x) = .ok a ↔ ¬c ∧ x = .ok a := by
  split <;> simp_all

theorem ite_ok_eq_ok_iff {ε α : Type} {c : Prop} [Decidable c] {e : ε} {x : Except ε α} {a : α} :
    (if c then x else .error e) = .ok a ↔ c ∧ x = .ok a := by
  split <;> simp_all

theorem validateSegmentValue_iff {lastSegment : Bool} {m : Mask} :
    validateSegmentValue lastSegment m = .ok () ↔ m.FitsSegment lastSegment := by
  unfold validateSegmentValue
  constructor
  · intro h
    split at h
    next => contradiction
    next hwhole =>
      split at h
      next => contradiction
      next hbelow => exact ⟨by simpa using hwhole, by simpa using hbelow⟩
  · rintro ⟨hwhole, hbelow⟩
    rw [if_neg (by simpa using hwhole), if_neg (by simpa using hbelow)]

mutual

theorem validateExpr_iff : ∀ (e : Expr) {lastSegment : Bool} {place : Place},
    validateExpr lastSegment place.inBracket e = .ok () ↔ e.Valid lastSegment place
  | .value m, lastSegment, .segment => by
    refine Iff.trans validateSegmentValue_iff ⟨.value, ?_⟩
    intro h
    cases h with
    | value fits => exact fits
  | .value m, lastSegment, .bracket => ⟨fun _ => .presence lastSegment m, fun _ => rfl⟩
  | .apply op es, lastSegment, place => by
    rw [validateExpr]
    constructor
    · intro h
      split at h
      next count => exact .apply count ((validateOperands_iff es).mp h)
      next => contradiction
    · intro h
      cases h with
      | apply count each =>
        rw [if_pos count]
        exact (validateOperands_iff es).mpr each
  | .property k v, lastSegment, .segment => ⟨nofun, nofun⟩
  | .property k v, lastSegment, .bracket => ⟨fun _ => .property lastSegment k v, fun _ => rfl⟩
  | .node m e, lastSegment, .segment => by
    refine Iff.trans bind_eq_ok_iff ?_
    constructor
    · rintro ⟨_, fits, filter⟩
      exact .node (validateSegmentValue_iff.mp fits) ((validateExpr_iff e).mp filter)
    · intro h
      cases h with
      | node fits filter =>
        exact ⟨(), validateSegmentValue_iff.mpr fits, (validateExpr_iff e).mpr filter⟩
  | .node m e, lastSegment, .bracket => ⟨nofun, nofun⟩
  | .always, lastSegment, place => ⟨fun _ => .always lastSegment place, fun _ => rfl⟩
  | .foreign f, lastSegment, place => ⟨nofun, nofun⟩

theorem validateOperands_iff : ∀ (es : List Expr) {lastSegment : Bool} {place : Place},
    validateOperands lastSegment place.inBracket es = .ok () ↔
      ∀ e ∈ es, e.Valid lastSegment place
  | [], _, _ => ⟨fun _ => nofun, fun _ => rfl⟩
  | e :: es, lastSegment, place => by
    rw [validateOperands, bind_eq_ok_iff, List.forall_mem_cons, ← validateExpr_iff e,
      ← validateOperands_iff es]
    exact ⟨fun ⟨_, head, tail⟩ => ⟨head, tail⟩, fun ⟨head, tail⟩ => ⟨(), head, tail⟩⟩

end

theorem validateSegments_iff {segments : List Expr} :
    validateSegments segments = .ok () ↔ ValidSegments segments := by
  induction segments with
  | nil => exact ⟨fun _ => .nil, fun _ => rfl⟩
  | cons e es ih =>
    rw [validateSegments, bind_eq_ok_iff]
    constructor
    · rintro ⟨_, head, tail⟩
      exact .cons ((@validateExpr_iff e _ .segment).mp head) (ih.mp tail)
    · intro h
      cases h with
      | cons head tail => exact ⟨(), (@validateExpr_iff e _ .segment).mpr head, ih.mpr tail⟩

end PathFilter
