import PathFilter.Evaluation
import PathFilter.Validation

namespace PathFilter

/-- Asks each operand for its verdict, from left to right, until one of them is `decisive`. -/
def decideBy (decisive : Bool) (ask : Expr → Except EvalError Bool) :
    List Expr → Except EvalError Bool
  | [] => .ok !decisive
  | e :: es => do
    if (← ask e) = decisive then pure decisive else decideBy decisive ask es

/-- The verdict of an operator on its operands, the same in a segment and inside a bracket. -/
def Operator.verdict (op : Operator) (ask : Expr → Except EvalError Bool) (es : List Expr) :
    Except EvalError Bool :=
  match op, es with
  | .or, es => decideBy true ask es
  | .and, es => decideBy false ask es
  | .not, [] => .error .missingOperand
  | .not, [e] => do
    let b ← ask e
    pure !b
  | .not, _ :: _ :: _ => .error .extraOperands

section

variable {ask ask' : Expr → Except EvalError Bool} {es : List Expr}

theorem decideBy_congr (h : ∀ e ∈ es, ask e = ask' e) (decisive : Bool) :
    decideBy decisive ask es = decideBy decisive ask' es := by
  induction es with
  | nil => rfl
  | cons e es ih =>
    obtain ⟨head, tail⟩ := List.forall_mem_cons.mp h
    rw [decideBy, decideBy, head, ih tail]

/-- An operator sees of its operands only their verdicts. -/
theorem Operator.verdict_congr (op : Operator) (h : ∀ e ∈ es, ask e = ask' e) :
    op.verdict ask es = op.verdict ask' es := by
  cases op with
  | and => exact decideBy_congr h false
  | or => exact decideBy_congr h true
  | not =>
    match es with
    | [] => rfl
    | [e] => rw [Operator.verdict, Operator.verdict, h e (by simp)]
    | _ :: _ :: _ => rfl

theorem decideBy_of_each (h : ∀ e ∈ es, ∃ b, ask e = .ok b) (decisive : Bool) :
    ∃ b, decideBy decisive ask es = .ok b := by
  induction es with
  | nil => exact ⟨!decisive, rfl⟩
  | cons e es ih =>
    obtain ⟨head, tail⟩ := List.forall_mem_cons.mp h
    obtain ⟨b, hb⟩ := head
    simp only [decideBy, hb, bind, Except.bind]
    split
    · exact ⟨decisive, rfl⟩
    · exact ih tail

theorem Operator.singleton_of_admits (h : Operator.admits .not es.length = true) :
    ∃ e, es = [e] :=
  List.length_eq_one_iff.mp (by simpa [Operator.admits] using h)

theorem Operator.verdict_of_each {op : Operator} (count : op.admits es.length = true)
    (h : ∀ e ∈ es, ∃ b, ask e = .ok b) : ∃ b, op.verdict ask es = .ok b := by
  cases op with
  | and => exact decideBy_of_each h false
  | or => exact decideBy_of_each h true
  | not =>
    obtain ⟨e, rfl⟩ := singleton_of_admits count
    obtain ⟨b, hb⟩ := h e (by simp)
    exact ⟨!b, by rw [Operator.verdict, hb]; rfl⟩

/-- One operand that holds is enough. -/
theorem decideBy_true_iff (answered : ∀ e ∈ es, ∃ b, ask e = .ok b) :
    decideBy true ask es = .ok true ↔ ∃ e ∈ es, ask e = .ok true := by
  induction es with
  | nil => simp [decideBy]
  | cons e es ih =>
    obtain ⟨⟨b, hb⟩, tail⟩ := List.forall_mem_cons.mp answered
    rw [decideBy, hb]
    simp only [List.mem_cons, exists_eq_or_imp, ← ih tail, hb]
    cases b <;> simp [bind, Except.bind, pure, Except.pure]

theorem decideBy_false_iff (answered : ∀ e ∈ es, ∃ b, ask e = .ok b) :
    decideBy false ask es = .ok true ↔ ∀ e ∈ es, ask e = .ok true := by
  induction es with
  | nil => simp [decideBy]
  | cons e es ih =>
    obtain ⟨⟨b, hb⟩, tail⟩ := List.forall_mem_cons.mp answered
    rw [List.forall_mem_cons, ← ih tail, decideBy, hb]
    cases b <;> simp [bind, Except.bind, pure, Except.pure]

/-- What an operator asks of its operands, if each of them has a verdict. -/
def Operator.Demands (op : Operator) (P : Expr → Prop) (es : List Expr) : Prop :=
  match op with
  | .and => ∀ e ∈ es, P e
  | .or => ∃ e ∈ es, P e
  | .not => ∀ e ∈ es, ¬P e

theorem Operator.verdict_iff_demands {op : Operator} (count : op.admits es.length = true)
    (answered : ∀ e ∈ es, ∃ b, ask e = .ok b) :
    op.verdict ask es = .ok true ↔ op.Demands (ask · = .ok true) es := by
  cases op with
  | and => exact decideBy_false_iff answered
  | or => exact decideBy_true_iff answered
  | not =>
    obtain ⟨e, rfl⟩ := singleton_of_admits count
    obtain ⟨b, hb⟩ := answered e (by simp)
    rw [Operator.verdict, Operator.Demands, List.forall_mem_singleton, hb]
    cases b <;> simp [bind, Except.bind, pure, Except.pure]

end

namespace Expr

variable {pairs : List (String × String)} {segment : List Char}

theorem anyHolds_eq_decideBy (es : List Expr) :
    anyHolds pairs es = decideBy true (holds pairs) es := by
  induction es with
  | nil => rfl
  | cons e es ih => rw [anyHolds, decideBy, ih]

theorem allHold_eq_decideBy (es : List Expr) :
    allHold pairs es = decideBy false (holds pairs) es := by
  induction es with
  | nil => rfl
  | cons e es ih =>
    rw [allHold, decideBy, ih]
    congr 1
    funext b
    cases b <;> rfl

theorem anySelects_eq_decideBy (es : List Expr) :
    anySelects pairs segment es = decideBy true (selects pairs segment) es := by
  induction es with
  | nil => rfl
  | cons e es ih => rw [anySelects, decideBy, ih]

theorem allSelect_eq_decideBy (es : List Expr) :
    allSelect pairs segment es = decideBy false (selects pairs segment) es := by
  induction es with
  | nil => rfl
  | cons e es ih =>
    rw [allSelect, decideBy, ih]
    congr 1
    funext b
    cases b <;> rfl

theorem holds_apply (op : Operator) (es : List Expr) :
    holds pairs (.apply op es) = op.verdict (holds pairs) es := by
  cases op with
  | and => rw [holds, allHold_eq_decideBy, Operator.verdict]
  | or => rw [holds, anyHolds_eq_decideBy, Operator.verdict]
  | not =>
    match es with
    | [] => rfl
    | [_] => rfl
    | _ :: _ :: _ => rfl

theorem selects_apply (op : Operator) (es : List Expr) :
    selects pairs segment (.apply op es) = op.verdict (selects pairs segment) es := by
  cases op with
  | and => rw [selects, allSelect_eq_decideBy, Operator.verdict]
  | or => rw [selects, anySelects_eq_decideBy, Operator.verdict]
  | not =>
    match es with
    | [] => rfl
    | [_] => rfl
    | _ :: _ :: _ => rfl

end Expr

end PathFilter
