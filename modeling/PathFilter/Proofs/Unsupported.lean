import PathFilter.Proofs.PathForm
import PathFilter.Proofs.Regrouping

namespace PathFilter

/-- What has no truth value where it stands, whatever it is asked about. -/
inductive Expr.Unsupported : Place → Expr → Prop
  | foreign (place : Place) (f : Foreign) : Unsupported place (.foreign f)
  | property (k v : Mask) : Unsupported .segment (.property k v)
  | node (v : Mask) (filter : Expr) : Unsupported .bracket (.node v filter)
  | negation (place : Place) {es : List Expr} (count : es.length ≠ 1) :
      Unsupported place (.apply .not es)

/-- One unsupported part of an expression gives way to another expression of any kind. -/
inductive Expr.Replaces : Place → Expr → Expr → Prop
  | unsupported {place : Place} {e : Expr} (h : e.Unsupported place) (f : Expr) :
      Replaces place e f
  | operand {place : Place} (op : Operator) (before after : List Expr) {e f : Expr}
      (step : Replaces place e f) :
      Replaces place (.apply op (before ++ e :: after)) (.apply op (before ++ f :: after))
  | bracket (place : Place) (v : Mask) {e f : Expr} (step : Replaces .bracket e f) :
      Replaces place (.node v e) (.node v f)

/-- The same for an expression in a row of segments. -/
inductive SegmentReplaces : List Expr → List Expr → Prop
  | segment (before after : List Expr) {e f : Expr} (step : Expr.Replaces .segment e f) :
      SegmentReplaces (before ++ e :: after) (before ++ f :: after)

section

variable {ask : Expr → Except EvalError Bool} {e f : Expr} {b : Bool}

/-- An operand that is not asked does not count, and one that is asked has the same answer. -/
theorem decideBy_of_operand (step : ∀ c, ask e = .ok c → ask f = .ok c) {decisive : Bool}
    {before after : List Expr} (h : decideBy decisive ask (before ++ e :: after) = .ok b) :
    decideBy decisive ask (before ++ f :: after) = .ok b := by
  induction before with
  | nil =>
    rw [List.nil_append, decideBy, bind_eq_ok_iff] at h ⊢
    obtain ⟨c, hc, hrest⟩ := h
    exact ⟨c, step c hc, hrest⟩
  | cons d before ih =>
    rw [List.cons_append, decideBy, bind_eq_ok_iff] at h ⊢
    obtain ⟨c, hc, hrest⟩ := h
    refine ⟨c, hc, ?_⟩
    by_cases hdecides : c = decisive
    · rw [if_pos hdecides] at hrest ⊢
      exact hrest
    · rw [if_neg hdecides] at hrest ⊢
      exact ih hrest

theorem Operator.verdict_of_operand (step : ∀ c, ask e = .ok c → ask f = .ok c) {op : Operator}
    {before after : List Expr} (h : op.verdict ask (before ++ e :: after) = .ok b) :
    op.verdict ask (before ++ f :: after) = .ok b := by
  cases op with
  | and => exact decideBy_of_operand step h
  | or => exact decideBy_of_operand step h
  | not =>
    match before, after with
    | [], [] =>
      obtain ⟨c, hc, hrest⟩ := bind_eq_ok_iff.mp h
      exact bind_eq_ok_iff.mpr ⟨c, step c hc, hrest⟩
    | [], _ :: _ => contradiction
    | [_], _ => contradiction
    | _ :: _ :: _, _ => contradiction

end

section

variable {pairs : List (String × String)} {segment : List Char} {place : Place} {e f : Expr}
  {b : Bool}

namespace Expr

theorem Unsupported.verdict_ne_ok (h : e.Unsupported place) :
    place.verdict pairs segment e ≠ .ok b := by
  cases h with
  | foreign => cases place <;> nofun
  | property => nofun
  | node => nofun
  | @negation _ es count =>
    rw [Place.verdict_apply]
    match es with
    | [] => nofun
    | [_] => contradiction
    | _ :: _ :: _ => nofun

theorem Replaces.verdict_of_ok (step : Replaces place e f)
    (h : place.verdict pairs segment e = .ok b) : place.verdict pairs segment f = .ok b := by
  induction step generalizing b with
  | unsupported hunsupported => exact absurd h hunsupported.verdict_ne_ok
  | operand op before after _ ih =>
    rw [Place.verdict_apply] at h ⊢
    exact Operator.verdict_of_operand (fun _ => ih) h
  | bracket place v _ ih =>
    cases place with
    | bracket => exact absurd h (Unsupported.node v _).verdict_ne_ok
    | segment =>
      -- the bracket is read only where the value before it fits
      simp only [Place.verdict, selects] at h ih ⊢
      by_cases hfits : v.accepts segment = true
      · rw [if_pos hfits] at h ⊢
        exact ih h
      · rw [if_neg hfits] at h ⊢
        exact h

/-- What has an answer is the bare `**` before and after, or neither before nor after. -/
theorem Replaces.isEverythingBelow_eq (step : Replaces place e f)
    (h : place.verdict pairs segment e = .ok b) : e.isEverythingBelow = f.isEverythingBelow := by
  cases step with
  | unsupported hunsupported => exact absurd h hunsupported.verdict_ne_ok
  | operand => rfl
  | bracket => rfl

theorem verdict_of_replaced (steps : Relation.ReflTransGen (Replaces place) e f)
    (h : place.verdict pairs segment e = .ok b) : place.verdict pairs segment f = .ok b := by
  induction steps with
  | refl => exact h
  | tail _ step ih => exact step.verdict_of_ok ih

end Expr

/-- The walk asks the expression about one part at most, and only then does it count whether the
filter selects what is deeper. -/
theorem walk_of_replaces (step : Expr.Replaces .segment e f) {below below' : Bool}
    (same : ∀ part c, e.selects pairs part = .ok c → below = below') {before after : List Expr}
    {parts : List (List Char)} (h : walk pairs below (before ++ e :: after) parts = .ok b) :
    walk pairs below' (before ++ f :: after) parts = .ok b := by
  induction before generalizing parts with
  | nil =>
    cases parts with
    | nil => exact h
    | cons part parts =>
      rw [List.nil_append, walk, bind_eq_ok_iff] at h ⊢
      obtain ⟨c, hc, hrest⟩ := h
      have hf : Place.segment.verdict pairs part f = .ok c := step.verdict_of_ok hc
      rw [same part c hc] at hrest
      exact ⟨c, hf, hrest⟩
  | cons d before ih =>
    cases parts with
    | nil => exact h
    | cons part parts =>
      rw [List.cons_append, walk, bind_eq_ok_iff] at h ⊢
      obtain ⟨c, hc, hrest⟩ := h
      refine ⟨c, hc, ?_⟩
      cases c with
      | true => exact ih hrest
      | false => exact hrest

end

section

variable {segments segments' : List Expr} {path : String} {bag : PropertyBag} {b : Bool}

theorem SegmentReplaces.matchPath_of_ok (step : SegmentReplaces segments segments')
    (h : matchPath segments path bag = .ok b) : matchPath segments' path bag = .ok b := by
  obtain ⟨rest, root⟩ := exists_root_of_matchPath h
  rw [matchPath_of_root root, mapError_eq_ok_iff] at h ⊢
  cases step with
  | @segment before after e f step =>
    refine walk_of_replaces step (fun part c hc => ?_) h
    have hverdict : Place.segment.verdict bag.pairs part e = .ok c := hc
    have hlast := step.isEverythingBelow_eq hverdict
    unfold reachesBelow
    rw [List.getLast?_append_cons, List.getLast?_append_cons]
    cases after with
    | nil => simpa using hlast
    | cons d after => rw [List.getLast?_cons_cons, List.getLast?_cons_cons]

theorem matchPath_of_replaced (steps : Relation.ReflTransGen SegmentReplaces segments segments')
    (h : matchPath segments path bag = .ok b) : matchPath segments' path bag = .ok b := by
  induction steps with
  | refl => exact h
  | tail _ step ih => exact step.matchPath_of_ok ih

end

/-- An answer stays as it is whatever takes the place of the unsupported parts, one of them or many:
for a segment, inside a bracket, and for a path. -/
theorem Expr.answer_replaced (bag : PropertyBag) :
    (∀ {e f : Expr}, Relation.ReflTransGen (Replaces .segment) e f →
      ∀ segment b, e.selects bag.pairs segment = .ok b → f.selects bag.pairs segment = .ok b) ∧
    (∀ {e f : Expr}, Relation.ReflTransGen (Replaces .bracket) e f →
      ∀ b, e.holds bag.pairs = .ok b → f.holds bag.pairs = .ok b) ∧
    (∀ {segments segments' : List Expr}, Relation.ReflTransGen SegmentReplaces segments segments' →
      ∀ path b, matchPath segments path bag = .ok b → matchPath segments' path bag = .ok b) := by
  refine ⟨fun steps segment b h => ?_, fun steps b h => ?_, fun steps path b h => ?_⟩
  · have hverdict : Place.segment.verdict bag.pairs segment _ = .ok b := h
    exact verdict_of_replaced steps hverdict
  · have hverdict : Place.bracket.verdict bag.pairs [] _ = .ok b := h
    exact verdict_of_replaced steps hverdict
  · exact matchPath_of_replaced steps h

theorem Expr.answer_replaced_unread :
    let bag : PropertyBag := ⟨[.pair "k" "v"]⟩
    let a : Expr := .value ⟨['a']⟩
    let odd : Expr := .foreign ⟨"Between", "1..3", "Between(1, 3)"⟩
    let k : Expr := .value ⟨['k']⟩
    let e : Expr := .apply .or [a, .apply .not [odd, k], .node ⟨['b']⟩ (.node ⟨['c']⟩ k)]
    let f : Expr := .apply .or [a, .apply .not [a], .node ⟨['b']⟩ k]
    let filter : Expr := .apply .not [.apply .and [k, .apply .or [k, .node ⟨['c']⟩ k]]]
    let filter' : Expr := .apply .not [.apply .and [k, .apply .or [k, odd]]]
    let segments : List Expr := [.apply .not [e], .property ⟨['k']⟩ ⟨['v']⟩]
    let segments' : List Expr := [.apply .not [e], .value .everythingBelow]
    (Relation.ReflTransGen (Replaces .segment) e f ∧ e.selects bag.pairs ['a'] = .ok true ∧
      f.selects bag.pairs ['a'] = .ok true) ∧
    (Relation.ReflTransGen (Replaces .bracket) filter filter' ∧ filter.holds bag.pairs = .ok false ∧
      filter'.holds bag.pairs = .ok false) ∧
    (Relation.ReflTransGen SegmentReplaces segments segments' ∧
      matchPath segments "/a/b/c" bag = .ok false ∧
      matchPath segments' "/a/b/c" bag = .ok false) := by
  intro bag a odd k e f filter filter' segments segments'
  have negation : (Expr.apply .not [odd, k]).Unsupported .segment := .negation _ (by simp)
  have inner : (Expr.node ⟨['c']⟩ k).Unsupported .bracket := .node _ k
  let between : Expr := .apply .or [a, .apply .not [a], .node ⟨['b']⟩ (.node ⟨['c']⟩ k)]
  have first : Replaces .segment e between := .operand .or [a] _ (.unsupported negation _)
  have second : Replaces .segment between f :=
    .operand .or [a, .apply .not [a]] [] (.bracket _ _ (.unsupported inner k))
  have bracket : Replaces .bracket filter filter' :=
    .operand .not [] [] (.operand .and [k] [] (.operand .or [k] [] (.unsupported inner _)))
  have row : SegmentReplaces segments segments' :=
    .segment [.apply .not [e]] [] (.unsupported (.property _ _) _)
  obtain ⟨inSegment, inBracket, onPath⟩ := answer_replaced bag
  exact ⟨⟨.head first (.single second), rfl, inSegment (.head first (.single second)) _ _ rfl⟩,
    ⟨.single bracket, rfl, inBracket (.single bracket) _ rfl⟩,
    ⟨.single row, by decide, onPath (.single row) _ _ (by decide)⟩⟩

end PathFilter
