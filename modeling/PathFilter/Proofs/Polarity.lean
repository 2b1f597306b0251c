import PathFilter.Proofs.Subtree

namespace PathFilter

/-- How many negations an operator puts above its operands. -/
def Operator.negations : Operator → Nat
  | .not => 1
  | _ => 0

namespace Expr

mutual

/-- For each predicate of a bracket, from left to right, how many negations stand above it, when
`above` of them stand above the expression. -/
def negationsAbove (place : Place) (above : Nat) : Expr → List Nat
  | .value _ => if place = .bracket then [above] else []
  | .property _ _ => if place = .bracket then [above] else []
  | .apply op es => operandNegations place (above + op.negations) es
  | .node _ e => negationsAbove .bracket above e
  | .always => []
  | .foreign _ => []

def operandNegations (place : Place) (above : Nat) : List Expr → List Nat
  | [] => []
  | e :: es => negationsAbove place above e ++ operandNegations place above es

end

theorem operandNegations_eq_flatMap (place : Place) (above : Nat) (es : List Expr) :
    operandNegations place above es = es.flatMap (negationsAbove place above) := by
  induction es with
  | nil => rfl
  | cons e es ih => simp [operandNegations, ih]

end Expr

/-- An even number of negations keeps an implication as it is, an odd number turns it around. -/
def Carries (negations : Nat) (P Q : Prop) : Prop :=
  if negations % 2 = 0 then P → Q else Q → P

namespace Carries

variable {negations : Nat} {P Q : Prop}

theorem of_even (h : negations % 2 = 0) : Carries negations P Q ↔ (P → Q) := by
  rw [Carries, if_pos h]

theorem of_odd (h : negations % 2 = 1) : Carries negations P Q ↔ (Q → P) := by
  rw [Carries, if_neg (by omega)]

theorem of_iff (negations : Nat) (h : P ↔ Q) : Carries negations P Q := by
  rcases Nat.mod_two_eq_zero_or_one negations with even | odd
  · exact (of_even even).mpr h.mp
  · exact (of_odd odd).mpr h.mpr

theorem not (h : Carries (negations + 1) P Q) : Carries negations (¬P) (¬Q) := by
  rcases Nat.mod_two_eq_zero_or_one negations with even | odd
  · exact (of_even even).mpr (mt ((of_odd (by omega)).mp h))
  · exact (of_odd odd).mpr (mt ((of_even (by omega)).mp h))

theorem and_left (R : Prop) (h : Carries negations P Q) :
    Carries negations (R ∧ P) (R ∧ Q) := by
  rcases Nat.mod_two_eq_zero_or_one negations with even | odd
  · exact (of_even even).mpr (And.imp_right ((of_even even).mp h))
  · exact (of_odd odd).mpr (And.imp_right ((of_odd odd).mp h))

section

variable {α : Type} {P Q : α → Prop}

theorem forall_mem {xs : List α} (h : ∀ x ∈ xs, Carries negations (P x) (Q x)) :
    Carries negations (∀ x ∈ xs, P x) (∀ x ∈ xs, Q x) := by
  rcases Nat.mod_two_eq_zero_or_one negations with even | odd
  · exact (of_even even).mpr fun hP x hx => (of_even even).mp (h x hx) (hP x hx)
  · exact (of_odd odd).mpr fun hQ x hx => (of_odd odd).mp (h x hx) (hQ x hx)

theorem exists_of_forall (h : ∀ x, Carries negations (P x) (Q x)) :
    Carries negations (∃ x, P x) (∃ x, Q x) := by
  rcases Nat.mod_two_eq_zero_or_one negations with even | odd
  · exact (of_even even).mpr (Exists.imp fun x => (of_even even).mp (h x))
  · exact (of_odd odd).mpr (Exists.imp fun x => (of_odd odd).mp (h x))

end

/-- An operator hands on what its operands carry, and a negation turns it around. -/
theorem demands {op : Operator} {P Q : Expr → Prop} {es : List Expr}
    (h : ∀ e ∈ es, Carries (negations + op.negations) (P e) (Q e)) :
    Carries negations (op.Demands P es) (op.Demands Q es) := by
  cases op with
  | and => exact forall_mem h
  | or =>
    refine exists_of_forall fun e => ?_
    by_cases he : e ∈ es
    · exact (h e he).and_left _
    · exact of_iff _ (by simp [he])
  | not => exact forall_mem fun e he => (h e he).not

end Carries

section

variable {ps qs : List (String × String)} {above : Nat} {lastSegment : Bool}

/-- A predicate asks for some pair, so it hands on what the pairs carry. -/
theorem any_carries (h : ∀ entry, Carries above (entry ∈ ps) (entry ∈ qs))
    (fits : String × String → Bool) :
    Carries above ((.ok (ps.any fits) : Except EvalError Bool) = .ok true)
      ((.ok (qs.any fits) : Except EvalError Bool) = .ok true) := by
  simp only [Except.ok.injEq, List.any_eq_true, and_comm (b := fits _ = true)]
  exact Carries.exists_of_forall fun entry => (h entry).and_left _

namespace Expr

/-- More pairs make a filter hold that stands under an even number of negations, and keep one from
holding that stands under an odd number. -/
theorem holds_carries {e : Expr} (valid : e.Valid lastSegment .bracket)
    (pairs : ∀ n ∈ e.negationsAbove .bracket above, ∀ entry,
      Carries n (entry ∈ ps) (entry ∈ qs)) :
    Carries above (e.holds ps = .ok true) (e.holds qs = .ok true) := by
  generalize hplace : Place.bracket = place at valid
  induction valid generalizing above with
  | value => cases hplace
  | node => cases hplace
  | presence _ m => exact any_carries (pairs above (by simp [negationsAbove])) _
  | property _ k v => exact any_carries (pairs above (by simp [negationsAbove])) _
  | always => exact .of_iff _ Iff.rfl
  | @apply _ place op es count each ih =>
    subst hplace
    rw [negationsAbove, operandNegations_eq_flatMap] at pairs
    rw [holds_apply, holds_apply,
      Operator.verdict_iff_demands count fun e he => holds_of_valid (each e he) ps,
      Operator.verdict_iff_demands count fun e he => holds_of_valid (each e he) qs]
    exact .demands fun e he =>
      ih e he (fun n hn => pairs n (List.mem_flatMap.mpr ⟨e, he, hn⟩)) rfl

theorem selects_carries {e : Expr} (valid : e.Valid lastSegment .segment)
    (pairs : ∀ n ∈ e.negationsAbove .segment above, ∀ entry,
      Carries n (entry ∈ ps) (entry ∈ qs)) (segment : List Char) :
    Carries above (e.selects ps segment = .ok true) (e.selects qs segment = .ok true) := by
  generalize hplace : Place.segment = place at valid
  induction valid generalizing above with
  | value => exact .of_iff _ Iff.rfl
  | presence => cases hplace
  | property => cases hplace
  | @node _ v e _ filter _ =>
    have hnode : ∀ pairs, (Expr.node v e).selects pairs segment = .ok true ↔
        v.accepts segment = true ∧ e.holds pairs = .ok true := by
      intro pairs
      rw [selects]
      split <;> simp_all
    rw [hnode, hnode]
    exact (holds_carries filter pairs).and_left _
  | always => exact .of_iff _ Iff.rfl
  | @apply _ place op es count each ih =>
    subst hplace
    rw [negationsAbove, operandNegations_eq_flatMap] at pairs
    rw [selects_apply, selects_apply,
      Operator.verdict_iff_demands count fun e he => selects_of_valid (each e he) ps segment,
      Operator.verdict_iff_demands count fun e he => selects_of_valid (each e he) qs segment]
    exact .demands fun e he =>
      ih e he (fun n hn => pairs n (List.mem_flatMap.mpr ⟨e, he, hn⟩)) rfl

end Expr

theorem agrees_carries {segments : List Expr} (valid : ValidSegments segments)
    (pairs : ∀ e ∈ segments, ∀ n ∈ e.negationsAbove .segment 0, ∀ entry,
      Carries n (entry ∈ ps) (entry ∈ qs)) {parts : List (List Char)}
    (h : Agrees ps segments parts) : Agrees qs segments parts := by
  induction valid generalizing parts with
  | nil => exact nofun
  | cons head _ ih =>
    cases parts with
    | nil => exact nofun
    | cons part parts =>
      obtain ⟨first, rest⟩ := List.forall_mem_cons.mp pairs
      obtain ⟨hselects, hagrees⟩ := agrees_cons.mp h
      exact agrees_cons.mpr ⟨Expr.selects_carries head first part hselects, ih rest hagrees⟩

end

theorem Filter.selects_carries {f : Filter} {x y : PropertyBag}
    (pairs : ∀ e ∈ f.segments, ∀ n ∈ e.negationsAbove .segment 0, ∀ entry,
      Carries n (entry ∈ x.pairs) (entry ∈ y.pairs)) {path : String}
    (h : f.selects (.text path) (.bag x) = .ok true) :
    f.selects (.text path) (.bag y) = .ok true := by
  obtain ⟨rest, root⟩ := exists_root h
  obtain ⟨hagrees, hdepth⟩ := (selects_root_iff root).mp h
  have valid := validateSegments_iff.mp f.valid
  exact (selects_root_iff root).mpr ⟨agrees_carries valid pairs hagrees, hdepth⟩

/-- Where an even number of negations stands above each predicate, more pairs select no fewer nodes;
where an odd number does, they select no more. -/
theorem Filter.selects_polarity (f : Filter) {x y : PropertyBag} (sub : x.pairs ⊆ y.pairs)
    (path : String) :
    ((∀ e ∈ f.segments, ∀ n ∈ e.negationsAbove .segment 0, n % 2 = 0) →
      f.selects (.text path) (.bag x) = .ok true → f.selects (.text path) (.bag y) = .ok true) ∧
    ((∀ e ∈ f.segments, ∀ n ∈ e.negationsAbove .segment 0, n % 2 = 1) →
      f.selects (.text path) (.bag y) = .ok true →
        f.selects (.text path) (.bag x) = .ok true) := by
  constructor
  · intro even
    exact selects_carries fun e he n hn entry =>
      (Carries.of_even (even e he n hn)).mpr fun hentry => sub hentry
  · intro odd
    exact selects_carries fun e he n hn entry =>
      (Carries.of_odd (odd e he n hn)).mpr fun hentry => sub hentry

theorem Filter.selects_polarity_nested :
    let x : PropertyBag := ⟨[.pair "k" "v"]⟩
    let y : PropertyBag := ⟨[.label "w", .pair "j" "u", .pair "k" "v"]⟩
    ∃ f g : Filter, Filter.ofText "!A[!(k=v&k)]|B[j]" = .ok f ∧
      Filter.ofText "A[!(j=w)]&!B[k]" = .ok g ∧ x.pairs ⊆ y.pairs ∧
      (∀ e ∈ f.segments, ∀ n ∈ e.negationsAbove .segment 0, n % 2 = 0) ∧
      (f.selects (.text "/A") (.bag x) = .ok true ∧ f.selects (.text "/A") (.bag y) = .ok true) ∧
      (∀ e ∈ g.segments, ∀ n ∈ e.negationsAbove .segment 0, n % 2 = 1) ∧
      g.selects (.text "/A") (.bag y) = .ok true ∧ g.selects (.text "/A") (.bag x) = .ok true := by
  intro x y
  have parsed : parseFilter "!A[!(k=v&k)]|B[j]" = .ok
      [.apply .or [.apply .not [.node ⟨['A']⟩ (.apply .not
        [.apply .and [.property ⟨['k']⟩ ⟨['v']⟩, .value ⟨['k']⟩]])],
        .node ⟨['B']⟩ (.value ⟨['j']⟩)]] := by cbv
  have parsed' : parseFilter "A[!(j=w)]&!B[k]" = .ok
      [.apply .and [.node ⟨['A']⟩ (.apply .not [.property ⟨['j']⟩ ⟨['w']⟩]),
        .apply .not [.node ⟨['B']⟩ (.value ⟨['k']⟩)]]] := by cbv
  let f : Filter := ⟨_, _, parsed⟩
  let g : Filter := ⟨_, _, parsed'⟩
  have sub : x.pairs ⊆ y.pairs := by decide
  have even : ∀ e ∈ f.segments, ∀ n ∈ e.negationsAbove .segment 0, n % 2 = 0 :=
    List.forall_mem_singleton.mpr (by decide)
  have odd : ∀ e ∈ g.segments, ∀ n ∈ e.negationsAbove .segment 0, n % 2 = 1 :=
    List.forall_mem_singleton.mpr (by decide)
  have hx : f.selects (.text "/A") (.bag x) = .ok true := rfl
  have hy : g.selects (.text "/A") (.bag y) = .ok true := rfl
  exact ⟨f, g, ofText_of_parsed parsed, ofText_of_parsed parsed', sub, even,
    ⟨hx, (f.selects_polarity sub "/A").1 even hx⟩, odd,
    ⟨hy, (g.selects_polarity sub "/A").2 odd hy⟩⟩

end PathFilter
