import PathFilter.Proofs.FirstViolation
import PathFilter.Proofs.RoundTrip
import Mathlib.Algebra.GroupWithZero.Nat

namespace PathFilter

/-- Parentheses and separators leave no expression of their own in a tree. -/
def Mark.isKept : Mark → Bool
  | .openGroup => false
  | .closeGroup => false
  | .separator => false
  | _ => true

namespace Expr

def isNegation : Expr → Bool
  | .apply .not _ => true
  | _ => false

/-- How many times `op` joins operands in a node. -/
def joints (op : Operator) : Expr → Nat
  | .apply op' es => if op' = op then es.length - 1 else 0
  | _ => 0

/-- How often the text of an expression shows a mark outside the texts of its parts. -/
def shows (m : Mark) (e : Expr) : Nat :=
  match m with
  | .not => e.isNegation.toNat
  | .and => e.joints .and
  | .or => e.joints .or
  | .equals => (e.kind == .property).toNat
  | .openBracket => (e.kind == .node).toNat
  | .closeBracket => (e.kind == .node).toNat
  | _ => 0

section

variable (m : Mark)

@[simp] theorem shows_value (v : Mask) : (value v).shows m = 0 := by
  cases m <;> rfl

@[simp] theorem shows_property (k v : Mask) :
    (property k v).shows m = if m = .equals then 1 else 0 := by
  cases m <;> rfl

@[simp] theorem shows_node (v : Mask) (e : Expr) :
    (node v e).shows m = if m = .openBracket ∨ m = .closeBracket then 1 else 0 := by
  cases m <;> rfl

@[simp] theorem shows_not (es : List Expr) :
    (apply .not es).shows m = if m = .not then 1 else 0 := by
  cases m <;> rfl

@[simp] theorem shows_and (es : List Expr) :
    (apply .and es).shows m = if m = .and then es.length - 1 else 0 := by
  cases m <;> rfl

@[simp] theorem shows_or (es : List Expr) :
    (apply .or es).shows m = if m = .or then es.length - 1 else 0 := by
  cases m <;> rfl

end

end Expr

/-- The sum of the weights of some expressions. -/
def tally (weight : Expr → Nat) (xs : List Site) : Nat := (xs.map fun s => weight s.expr).sum

section

variable {weight : Expr → Nat}

@[simp] theorem tally_nil : tally weight [] = 0 := rfl

@[simp] theorem tally_cons (s : Site) (xs : List Site) :
    tally weight (s :: xs) = weight s.expr + tally weight xs := rfl

@[simp] theorem tally_append (xs ys : List Site) :
    tally weight (xs ++ ys) = tally weight xs + tally weight ys := by
  simp [tally]

theorem tally_operandSites (lastSegment : Bool) (place : Place) (es : List Expr) :
    tally weight (operandSites lastSegment place es) =
      (es.map fun e => tally weight (sites lastSegment place e)).sum := by
  induction es with
  | nil => rfl
  | cons e es ih => simp [operandSites, ih]

theorem tally_eq_countP {p : Expr → Bool} (h : ∀ e, weight e = (p e).toNat) (xs : List Site) :
    tally weight xs = (xs.map Site.expr).countP p := by
  induction xs with
  | nil => rfl
  | cons s xs ih =>
    rw [tally_cons, List.map_cons, List.countP_cons, ih, h]
    cases p s.expr <;> simp [Nat.add_comm]

end

theorem count_intercalate (m : Mark) (x : Lexeme) (ls : List (List Lexeme)) :
    ([.mark m].intercalate ls).count x =
      (if x = .mark m then ls.length - 1 else 0) + (ls.map (List.count x)).sum := by
  induction ls with
  | nil => simp
  | cons l ls ih =>
    cases ls with
    | nil => simp
    | cons r ls =>
      simp only [List.intercalate_cons_cons, List.count_append, List.map_cons, List.sum_cons,
        List.length_cons] at ih ⊢
      by_cases hx : x = .mark m
      · subst hx
        simp only [↓reduceIte, List.count_singleton_self] at ih ⊢
        omega
      · have hcount : [Lexeme.mark m].count x = 0 := by
          rw [List.count_eq_zero, List.mem_singleton]
          exact hx
        simp only [if_neg hx] at ih ⊢
        omega

/-- The marks of a chain stand between its operands. -/
theorem tally_chain {m n : Mark} {op : Operator} {es : List Expr}
    (hop : ∀ es, (Expr.apply op es).shows m = if m = n then es.length - 1 else 0)
    (nonempty : es ≠ []) (lastSegment : Bool) (place : Place) :
    tally (Expr.shows m) (sites lastSegment place (.chain op es)) =
      (if m = n then es.length - 1 else 0) +
        (es.map fun e => tally (Expr.shows m) (sites lastSegment place e)).sum := by
  match es with
  | [] => contradiction
  | [e] => simp
  | e :: e' :: es => rw [Expr.chain, sites, tally_cons, tally_operandSites, hop]; simp

theorem DerivesValue.count_eq_zero {l : List Lexeme} {p : Pattern} (h : DerivesValue l p) {m : Mark}
    (kept : m.isKept = true) : l.count (.mark m) = 0 := by
  induction h with
  | plain p => simp
  | group _ ih => cases m <;> simp_all [Mark.isKept]

/-- The operands of a chain account for all of its text but the marks between them. -/
theorem tally_of_parts {m n : Mark} {op : Operator} {parts : List (List Lexeme × Expr)}
    (hop : ∀ es, (Expr.apply op es).shows m = if m = n then es.length - 1 else 0)
    (nonempty : parts ≠ []) (lastSegment : Bool) (place : Place)
    (each : ∀ part ∈ parts,
      tally (Expr.shows m) (sites lastSegment place part.2) = part.1.count (.mark m)) :
    tally (Expr.shows m) (sites lastSegment place (.chain op (parts.map Prod.snd))) =
      ([.mark n].intercalate (parts.map Prod.fst)).count (.mark m) := by
  rw [tally_chain hop (by simpa using nonempty), count_intercalate]
  simp only [List.length_map, List.map_map, Lexeme.mark.injEq]
  rw [List.map_congr_left (f := _ ∘ Prod.snd) (g := List.count (.mark m) ∘ Prod.fst) each]

/-- No mark is lost or added on the way from a text to its tree. -/
theorem Derives.tally_eq_count {place : Place} {level : Level} {l : List Lexeme} {e : Expr}
    (h : Derives place level l e) {m : Mark} (kept : m.isKept = true) (lastSegment : Bool)
    (there : Place) : tally (Expr.shows m) (sites lastSegment there e) = l.count (.mark m) := by
  induction h generalizing there with
  | or nonempty _ ih =>
    exact tally_of_parts (Expr.shows_or m) nonempty _ _ fun part hpart => ih part hpart there
  | and nonempty _ ih =>
    exact tally_of_parts (Expr.shows_and m) nonempty _ _ fun part hpart => ih part hpart there
  | not _ ih =>
    rw [sites, tally_cons, operandSites, operandSites, List.append_nil, ih]
    cases m <;> simp [Nat.add_comm]
  | group _ ih =>
    rw [ih]
    cases m <;> simp_all [Mark.isKept]
  | value p => simp [sites]
  | node p _ ih =>
    rw [sites, tally_cons, tally_cons, ih]
    cases m <;> simp [Nat.add_comm]
  | presence key => simp [sites, key.count_eq_zero kept]
  | property key value =>
    rw [List.count_append, List.count_cons, key.count_eq_zero kept, value.count_eq_zero kept]
    cases m <;> simp [sites]

theorem tally_segmentSites {weight : Expr → Nat} {x : Lexeme} {parts : List (List Lexeme × Expr)}
    (each : ∀ part ∈ parts, ∀ lastSegment,
      tally weight (sites lastSegment .segment part.2) = part.1.count x) :
    tally weight (segmentSites (parts.map Prod.snd)) =
      ((parts.map Prod.fst).map (List.count x)).sum := by
  induction parts with
  | nil => rfl
  | cons part parts ih =>
    obtain ⟨head, tail⟩ := List.forall_mem_cons.mp each
    simp only [List.map_cons, segmentSites, tally_append, head, ih tail, List.sum_cons]

theorem DerivesFilter.tally_eq_count {l : List Lexeme} {segments : List Expr}
    (h : DerivesFilter l segments) {m : Mark} (kept : m.isKept = true) :
    tally (Expr.shows m) (segmentSites segments) = l.count (.mark m) := by
  obtain ⟨leading, trailing, -, each⟩ := h
  have hne : Lexeme.mark m ≠ .mark .separator := by
    rintro ⟨⟩
    contradiction
  have hseparator : ∀ present, (optionalSeparator present).count (.mark m) = 0 := by
    intro present
    cases present with
    | false => rfl
    | true => exact List.count_eq_zero.mpr (by simpa [optionalSeparator] using hne)
  rw [tally_segmentSites fun part hpart lastSegment =>
      (each part hpart).tally_eq_count kept lastSegment .segment,
    List.count_append, List.count_append, hseparator, hseparator, count_intercalate, if_neg hne]
  omega

/-- Nothing in the text of an accepted filter is lost, repeated or moved: its segments hold its
values in order, and the operators and brackets that the text shows. -/
theorem parseFilter_conserves {f : String} {segments : List Expr}
    (h : parseFilter f = .ok segments) :
    let lexemes := (Lexing.ofFilter f.toList).lexemes
    let exprs := (segmentSites segments).map Site.expr
    segments.flatMap Expr.masks = (patternsOf lexemes).map Mask.ofPattern ∧
      exprs.countP Expr.isNegation = lexemes.count (.mark .not) ∧
      (exprs.map (Expr.joints .and)).sum = lexemes.count (.mark .and) ∧
      (exprs.map (Expr.joints .or)).sum = lexemes.count (.mark .or) ∧
      exprs.countP (·.kind == .property) = lexemes.count (.mark .equals) ∧
      exprs.countP (·.kind == .node) = lexemes.count (.mark .openBracket) := by
  intro lexemes exprs
  obtain ⟨l, hspells, hderives, -⟩ := parseFilter_iff_spells.mp h
  obtain rfl : lexemes = l := (Lexing.spells_iff.mp hspells).2
  have hcount (m : Mark) (kept : m.isKept = true) :
      tally (Expr.shows m) (segmentSites segments) = lexemes.count (.mark m) :=
    hderives.tally_eq_count kept
  refine ⟨hderives.masks_eq, ?_, ?_, ?_, ?_, ?_⟩
  · exact (tally_eq_countP (fun _ => rfl) _).symm.trans (hcount .not rfl)
  · exact (congrArg List.sum List.map_map).trans (hcount .and rfl)
  · exact (congrArg List.sum List.map_map).trans (hcount .or rfl)
  · exact (tally_eq_countP (fun _ => rfl) _).symm.trans (hcount .equals rfl)
  · exact (tally_eq_countP (fun _ => rfl) _).symm.trans (hcount .openBracket rfl)

theorem parseFilter_conserves_nested :
    let segments : List Expr :=
      [.apply .or [.value ⟨['A']⟩, .apply .not [.value ⟨['B']⟩], .value ⟨['C']⟩],
        .node ⟨['D']⟩ (.apply .and [.property ⟨['k']⟩ ⟨['v']⟩, .value ⟨['p']⟩])]
    let lexemes := (Lexing.ofFilter "/A|!(B)|C/D[k=v&p]".toList).lexemes
    let exprs := (segmentSites segments).map Site.expr
    parseFilter "/A|!(B)|C/D[k=v&p]" = .ok segments ∧
      segments.flatMap Expr.masks = (patternsOf lexemes).map Mask.ofPattern ∧
      exprs.countP Expr.isNegation = lexemes.count (.mark .not) ∧
      (exprs.map (Expr.joints .and)).sum = lexemes.count (.mark .and) ∧
      (exprs.map (Expr.joints .or)).sum = lexemes.count (.mark .or) ∧
      exprs.countP (·.kind == .property) = lexemes.count (.mark .equals) ∧
      exprs.countP (·.kind == .node) = lexemes.count (.mark .openBracket) := by
  have h : parseFilter "/A|!(B)|C/D[k=v&p]" = .ok
      [.apply .or [.value ⟨['A']⟩, .apply .not [.value ⟨['B']⟩], .value ⟨['C']⟩],
        .node ⟨['D']⟩ (.apply .and [.property ⟨['k']⟩ ⟨['v']⟩, .value ⟨['p']⟩])] := by cbv
  exact ⟨h, parseFilter_conserves h⟩

end PathFilter
