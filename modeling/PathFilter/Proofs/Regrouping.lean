import PathFilter.Proofs.Progress
import Mathlib.Logic.Relation

namespace PathFilter

/-- One change to how the operands of a connective are grouped, at the root of an expression or
anywhere below it. -/
inductive Expr.Regroups : Expr → Expr → Prop
  /-- the operands of an operand of the same kind take its place -/
  | splice {op : Operator} (connective : op ≠ .not) (before inner after : List Expr) :
      Regroups (.apply op (before ++ .apply op inner :: after))
        (.apply op (before ++ inner ++ after))
  /-- some operands that stand side by side, but not all of them, become one of the same kind -/
  | group {op : Operator} (connective : op ≠ .not) (before run after : List Expr)
      (two : 2 ≤ run.length) (proper : before ++ after ≠ []) :
      Regroups (.apply op (before ++ run ++ after))
        (.apply op (before ++ .apply op run :: after))
  | permute {op : Operator} (connective : op ≠ .not) {es fs : List Expr} (perm : es.Perm fs) :
      Regroups (.apply op es) (.apply op fs)
  | duplicate {op : Operator} (connective : op ≠ .not) (before after : List Expr) {e : Expr}
      (given : e ∈ before ++ after) :
      Regroups (.apply op (before ++ after)) (.apply op (before ++ e :: after))
  | operand (op : Operator) (before after : List Expr) {e f : Expr} (step : Regroups e f) :
      Regroups (.apply op (before ++ e :: after)) (.apply op (before ++ f :: after))
  | bracket (m : Mask) {e f : Expr} (step : Regroups e f) : Regroups (.node m e) (.node m f)

namespace Operator

variable {op : Operator} {P : Expr → Prop} {es fs before after inner : List Expr} {e f : Expr}

theorem admits_iff_of_connective (connective : op ≠ .not) (count : Nat) :
    op.admits count = true ↔ 2 ≤ count := by
  cases op with
  | and => exact decide_eq_true_iff
  | or => exact decide_eq_true_iff
  | not => contradiction

/-- Neither the order of the operands matters nor how often each is given. -/
theorem demands_iff_of_same (same : ∀ e, e ∈ es ↔ e ∈ fs) : op.Demands P es ↔ op.Demands P fs := by
  cases op <;> simp only [Demands, same]

theorem demands_append_cons_iff (h : P e ↔ P f) :
    op.Demands P (before ++ e :: after) ↔ op.Demands P (before ++ f :: after) := by
  cases op with
  | and => simp only [Demands, List.forall_mem_append, List.forall_mem_cons, h]
  | or =>
    simp only [Demands, List.mem_append, List.mem_cons, or_and_right, exists_or, exists_eq_left, h]
  | not => simp only [Demands, List.forall_mem_append, List.forall_mem_cons, h]

/-- A connective asks of an operand of its own kind what it would ask of that one's operands. -/
theorem demands_splice_iff (connective : op ≠ .not)
    (h : P (.apply op inner) ↔ op.Demands P inner) :
    op.Demands P (before ++ .apply op inner :: after) ↔
      op.Demands P (before ++ inner ++ after) := by
  cases op with
  | and =>
    simp only [Demands, List.append_assoc, List.forall_mem_append, List.forall_mem_cons, h]
  | or =>
    simp only [Demands, List.append_assoc, List.mem_append, List.mem_cons, or_and_right, exists_or,
      exists_eq_left, h]
  | not => contradiction

end Operator

/-- The answer to an expression where it stands. -/
def Place.verdict (pairs : List (String × String)) (segment : List Char) (place : Place)
    (e : Expr) : Except EvalError Bool :=
  match place with
  | .segment => e.selects pairs segment
  | .bracket => e.holds pairs

section

variable {pairs : List (String × String)} {segment : List Char} {place : Place}
  {lastSegment : Bool} {op : Operator} {e f : Expr} {es fs : List Expr}

theorem Place.verdict_of_valid (valid : e.Valid lastSegment place) (pairs : List (String × String))
    (segment : List Char) : ∃ b, place.verdict pairs segment e = .ok b := by
  cases place with
  | segment => exact Expr.selects_of_valid valid pairs segment
  | bracket => exact Expr.holds_of_valid valid pairs

theorem Place.verdict_apply (op : Operator) (es : List Expr) :
    place.verdict pairs segment (.apply op es) = op.verdict (place.verdict pairs segment) es := by
  cases place with
  | segment => exact Expr.selects_apply op es
  | bracket => exact Expr.holds_apply op es

theorem Place.verdict_apply_iff (valid : (Expr.apply op es).Valid lastSegment place) :
    place.verdict pairs segment (.apply op es) = .ok true ↔
      op.Demands (place.verdict pairs segment · = .ok true) es := by
  cases valid with
  | apply count each =>
    rw [verdict_apply, Operator.verdict_iff_demands count fun e he =>
      verdict_of_valid (each e he) pairs segment]

/-- Rows of operands of which an operator demands the same get the same answer. -/
theorem Place.verdict_apply_eq (valid : (Expr.apply op es).Valid lastSegment place)
    (valid' : (Expr.apply op fs).Valid lastSegment place)
    (same : op.Demands (place.verdict pairs segment · = .ok true) es ↔
      op.Demands (place.verdict pairs segment · = .ok true) fs) :
    place.verdict pairs segment (.apply op es) = place.verdict pairs segment (.apply op fs) := by
  obtain ⟨a, ha⟩ := verdict_of_valid valid pairs segment
  obtain ⟨b, hb⟩ := verdict_of_valid valid' pairs segment
  rw [← verdict_apply_iff valid, ← verdict_apply_iff valid', ha, hb, Except.ok.injEq,
    Except.ok.injEq, ← Bool.eq_iff_iff] at same
  rw [ha, hb, same]

namespace Expr

theorem valid_apply_iff : (apply op es).Valid lastSegment place ↔
    op.admits es.length = true ∧ ∀ e ∈ es, e.Valid lastSegment place := by
  constructor
  · intro h
    cases h with
    | apply count each => exact ⟨count, each⟩
  · exact fun h => .apply h.1 h.2

namespace Regroups

/-- No regrouping takes an operand away for good, or leaves a connective with less than two. -/
theorem valid (step : Regroups e f) (h : e.Valid lastSegment place) :
    f.Valid lastSegment place := by
  induction step generalizing lastSegment place with
  | splice connective before inner after =>
    simp only [valid_apply_iff, Operator.admits_iff_of_connective connective,
      List.forall_mem_append, List.forall_mem_cons, List.length_append] at h ⊢
    obtain ⟨-, hbefore, ⟨two, hinner⟩, hafter⟩ := h
    exact ⟨by omega, ⟨hbefore, hinner⟩, hafter⟩
  | group connective before run after two proper =>
    have hrest := List.length_pos_iff.mpr proper
    simp only [valid_apply_iff, Operator.admits_iff_of_connective connective,
      List.forall_mem_append, List.forall_mem_cons, List.length_append, List.length_cons]
      at h hrest ⊢
    obtain ⟨-, ⟨hbefore, hrun⟩, hafter⟩ := h
    exact ⟨by omega, hbefore, ⟨two, hrun⟩, hafter⟩
  | permute _ perm =>
    obtain ⟨count, each⟩ := valid_apply_iff.mp h
    exact .apply (perm.length_eq ▸ count) fun e he => each e (perm.mem_iff.mpr he)
  | duplicate connective before after given =>
    have hgiven := (valid_apply_iff.mp h).2 _ given
    simp only [valid_apply_iff, Operator.admits_iff_of_connective connective,
      List.forall_mem_append, List.forall_mem_cons, List.length_append, List.length_cons] at h ⊢
    obtain ⟨two, hbefore, hafter⟩ := h
    exact ⟨by omega, hbefore, hgiven, hafter⟩
  | operand op before after _ ih =>
    simp only [valid_apply_iff, List.forall_mem_append, List.forall_mem_cons, List.length_append,
      List.length_cons] at h ⊢
    obtain ⟨count, hbefore, he, hafter⟩ := h
    exact ⟨count, hbefore, ih he, hafter⟩
  | bracket m _ ih =>
    cases h with
    | node fits filter => exact .node fits (ih filter)

/-- A regrouping of what breaks no rule leaves every answer as it was. -/
theorem verdict_eq (step : Regroups e f) (h : e.Valid lastSegment place) :
    place.verdict pairs segment e = place.verdict pairs segment f := by
  induction step generalizing lastSegment place with
  | splice connective before inner after =>
    have hinner := (valid_apply_iff.mp h).2 _ (List.mem_append_cons_self)
    exact Place.verdict_apply_eq h ((splice connective before inner after).valid h)
      (Operator.demands_splice_iff connective (Place.verdict_apply_iff hinner))
  | group connective before run after two proper =>
    have h' := (group connective before run after two proper).valid h
    have hrun := (valid_apply_iff.mp h').2 _ (List.mem_append_cons_self)
    exact Place.verdict_apply_eq h h'
      (Operator.demands_splice_iff connective (Place.verdict_apply_iff hrun)).symm
  | permute connective perm =>
    exact Place.verdict_apply_eq h ((permute connective perm).valid h)
      (Operator.demands_iff_of_same fun _ => perm.mem_iff)
  | @duplicate op connective before after e given =>
    refine Place.verdict_apply_eq h ((duplicate connective before after given).valid h)
      (Operator.demands_iff_of_same fun d => ?_)
    by_cases hd : d = e
    · subst hd
      exact iff_of_true given List.mem_append_cons_self
    · simp [hd]
  | operand op before after step ih =>
    have hstep := ih ((valid_apply_iff.mp h).2 _ (List.mem_append_cons_self))
    exact Place.verdict_apply_eq h ((operand op before after step).valid h)
      (Operator.demands_append_cons_iff (by rw [hstep]))
  | bracket m _ ih =>
    cases h with
    | node _ filter =>
      have hfilter : Place.verdict pairs segment .bracket _ = _ := ih filter
      simp only [Place.verdict] at hfilter ⊢
      rw [selects, selects, hfilter]

end Regroups

theorem same_of_regroups (steps : Relation.ReflTransGen Regroups e f)
    (h : e.Valid lastSegment place) : f.Valid lastSegment place ∧
      ∀ pairs segment, place.verdict pairs segment e = place.verdict pairs segment f := by
  induction steps with
  | refl => exact ⟨h, fun _ _ => rfl⟩
  | tail _ step ih =>
    obtain ⟨valid, same⟩ := ih
    exact ⟨step.valid valid, fun pairs segment =>
      (same pairs segment).trans (step.verdict_eq valid)⟩

end Expr

end

/-- However the operands of connectives are grouped, ordered and repeated in an expression that
breaks no rule, the result breaks none and gets the same answer, in a segment and in a bracket. -/
theorem Expr.verdict_regrouped {e f : Expr} (steps : Relation.ReflTransGen Regroups e f)
    (lastSegment : Bool) (bag : PropertyBag) :
    (validateExpr lastSegment false e = .ok () →
      validateExpr lastSegment false f = .ok () ∧
      ∀ segment, ∃ b, e.selects bag.pairs segment = .ok b ∧
        f.selects bag.pairs segment = .ok b) ∧
    (validateExpr lastSegment true e = .ok () →
      validateExpr lastSegment true f = .ok () ∧
      ∃ b, e.holds bag.pairs = .ok b ∧ f.holds bag.pairs = .ok b) := by
  constructor
  · intro h
    have valid := (@validateExpr_iff e lastSegment .segment).mp h
    obtain ⟨valid', same⟩ := same_of_regroups steps valid
    refine ⟨(@validateExpr_iff f lastSegment .segment).mpr valid', fun segment => ?_⟩
    obtain ⟨b, hb⟩ := selects_of_valid valid bag.pairs segment
    exact ⟨b, hb, (same bag.pairs segment).symm.trans hb⟩
  · intro h
    have valid := (@validateExpr_iff e lastSegment .bracket).mp h
    obtain ⟨valid', same⟩ := same_of_regroups steps valid
    refine ⟨(@validateExpr_iff f lastSegment .bracket).mpr valid', ?_⟩
    obtain ⟨b, hb⟩ := holds_of_valid valid bag.pairs
    exact ⟨b, hb, (same bag.pairs []).symm.trans hb⟩

theorem Expr.verdict_regrouped_nested :
    let bag : PropertyBag := ⟨[.pair "k" "v"]⟩
    let k : Expr := .value ⟨['k']⟩
    let kv : Expr := .property ⟨['k']⟩ ⟨['v']⟩
    let filter : Expr := .apply .or [k, kv, .always]
    let filter' : Expr := .apply .or [.apply .or [k, kv], .always]
    let a : Expr := .value ⟨['A']⟩
    let e : Expr :=
      .apply .and [.always, .apply .and [a, .apply .not [.node ⟨['B']⟩ filter]]]
    let f : Expr :=
      .apply .and [.apply .not [.node ⟨['B']⟩ filter'], .always, .always, a]
    (Relation.ReflTransGen Regroups e f ∧ validateExpr false false e = .ok () ∧
      validateExpr false false f = .ok () ∧
      ∀ segment, ∃ b, e.selects bag.pairs segment = .ok b ∧ f.selects bag.pairs segment = .ok b) ∧
    (Relation.ReflTransGen Regroups filter filter' ∧ validateExpr false true filter = .ok () ∧
      validateExpr false true filter' = .ok () ∧
      ∃ b, filter.holds bag.pairs = .ok b ∧ filter'.holds bag.pairs = .ok b) := by
  intro bag k kv filter filter' a e f
  have inner : Regroups filter filter' :=
    .group (by decide) [] [k, kv] [.always] (by decide) (by decide)
  let d : Expr := .apply .not [.node ⟨['B']⟩ filter']
  have permuted : Regroups (.apply .and [.always, a, d]) (.apply .and [d, .always, a]) :=
    .permute (by decide) (by decide)
  have steps : Relation.ReflTransGen Regroups e f := by
    refine .head (.splice (by decide) [.always] _ []) ?_
    refine .head (.operand .and [.always, a] [] (.operand .not [] [] (.bracket _ inner))) ?_
    exact .head permuted (.single (.duplicate (by decide) [d, .always] [a] (by simp)))
  exact ⟨⟨steps, rfl, (verdict_regrouped steps false bag).1 rfl⟩,
    .single inner, rfl, (verdict_regrouped (.single inner) false bag).2 rfl⟩

end PathFilter
