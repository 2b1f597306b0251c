import PathFilter.Expr
import PathFilter.Lexing
import Mathlib.Data.List.Basic

namespace PathFilter

/-- Where an expression stands: for a segment, or inside the bracket of a node. -/
inductive Place where
  | segment
  | bracket
deriving DecidableEq, Repr

/-- The connectives that a text may show outside parentheses: all, only `&`, or none. -/
inductive Level where
  | or
  | and
  | unary
deriving DecidableEq, Repr

/-- The operands of one connective. A single operand stands for itself, more make up one node. -/
def Expr.chain (op : Operator) : List Expr → Expr
  | [e] => e
  | es => .apply op es

/-- The texts of a key or of a property's value. -/
inductive DerivesValue : List Lexeme → Pattern → Prop
  | plain (p : Pattern) : DerivesValue [.value p] p
  | group {l : List Lexeme} {p : Pattern} (inner : DerivesValue l p) :
      DerivesValue (.mark .openGroup :: (l ++ [.mark .closeGroup])) p

/-- The grammar of expressions, with the tree of each text. The parts of a chain are its operands
with their trees. -/
inductive Derives : Place → Level → List Lexeme → Expr → Prop
  | or {place : Place} {parts : List (List Lexeme × Expr)} (nonempty : parts ≠ [])
      (each : ∀ part ∈ parts, Derives place .and part.1 part.2) :
      Derives place .or ([.mark .or].intercalate (parts.map Prod.fst))
        (.chain .or (parts.map Prod.snd))
  | and {place : Place} {parts : List (List Lexeme × Expr)} (nonempty : parts ≠ [])
      (each : ∀ part ∈ parts, Derives place .unary part.1 part.2) :
      Derives place .and ([.mark .and].intercalate (parts.map Prod.fst))
        (.chain .and (parts.map Prod.snd))
  | not {place : Place} {l : List Lexeme} {e : Expr} (operand : Derives place .unary l e) :
      Derives place .unary (.mark .not :: l) (.apply .not [e])
  | group {place : Place} {l : List Lexeme} {e : Expr} (inner : Derives place .or l e) :
      Derives place .unary (.mark .openGroup :: (l ++ [.mark .closeGroup])) e
  | value (p : Pattern) : Derives .segment .unary [.value p] (.value (.ofPattern p))
  | node (p : Pattern) {l : List Lexeme} {e : Expr} (filter : Derives .bracket .or l e) :
      Derives .segment .unary
        (.value p :: .mark .openBracket :: (l ++ [.mark .closeBracket]))
        (.node (.ofPattern p) e)
  | presence {l : List Lexeme} {p : Pattern} (key : DerivesValue l p) :
      Derives .bracket .unary l (.value (.ofPattern p))
  | property {l r : List Lexeme} {p q : Pattern} (key : DerivesValue l p)
      (value : DerivesValue r q) :
      Derives .bracket .unary (l ++ .mark .equals :: r) (.property (.ofPattern p) (.ofPattern q))

/-- A separator that may be left out. -/
def optionalSeparator (present : Bool) : List Lexeme :=
  if present then [.mark .separator] else []

/-- The grammar of filters: one expression for each segment. -/
inductive DerivesFilter : List Lexeme → List Expr → Prop
  | segments (leading trailing : Bool) {parts : List (List Lexeme × Expr)} (nonempty : parts ≠ [])
      (each : ∀ part ∈ parts, Derives .segment .or part.1 part.2) :
      DerivesFilter
        (optionalSeparator leading ++ [.mark .separator].intercalate (parts.map Prod.fst) ++
          optionalSeparator trailing)
        (parts.map Prod.snd)

namespace Expr

@[simp] theorem chain_singleton (op : Operator) (e : Expr) : chain op [e] = e := rfl

theorem chain_of_two_le {op : Operator} {es : List Expr} (h : 2 ≤ es.length) :
    chain op es = .apply op es := by
  match es, h with
  | _ :: _ :: _, _ => rfl

theorem chain_eq_value_iff {op : Operator} {es : List Expr} {m : Mask} :
    chain op es = .value m ↔ es = [.value m] := by
  match es with
  | [] => simp [chain]
  | [e] => simp
  | _ :: _ :: _ => simp [chain]

mutual

/-- The values of a tree from left to right: keys and node values before what belongs to them. -/
def masks : Expr → List Mask
  | .value m => [m]
  | .apply _ es => masksOfAll es
  | .property k v => [k, v]
  | .node v e => v :: masks e
  | .always => []
  | .foreign _ => []

def masksOfAll : List Expr → List Mask
  | [] => []
  | e :: es => masks e ++ masksOfAll es

end

theorem masksOfAll_eq_flatMap (es : List Expr) : masksOfAll es = es.flatMap masks := by
  induction es with
  | nil => rfl
  | cons e es ih => simp [masksOfAll, ih]

theorem masks_chain (op : Operator) (es : List Expr) : (chain op es).masks = es.flatMap masks := by
  match es with
  | [] => simp [chain, masks, masksOfAll]
  | [e] => simp
  | _ :: _ :: _ => simp [chain, masks, masksOfAll_eq_flatMap]

end Expr

def Lexeme.value? : Lexeme → Option Pattern
  | .value p => some p
  | .mark _ => none

/-- The patterns of the values in a text, in order. -/
def patternsOf (l : List Lexeme) : List Pattern := l.filterMap Lexeme.value?

@[simp] theorem patternsOf_nil : patternsOf [] = [] := rfl

@[simp] theorem patternsOf_value (p : Pattern) (l : List Lexeme) :
    patternsOf (.value p :: l) = p :: patternsOf l := rfl

@[simp] theorem patternsOf_mark (m : Mark) (l : List Lexeme) :
    patternsOf (.mark m :: l) = patternsOf l := rfl

@[simp] theorem patternsOf_append (l r : List Lexeme) :
    patternsOf (l ++ r) = patternsOf l ++ patternsOf r := List.filterMap_append

theorem patternsOf_intercalate (m : Mark) (ls : List (List Lexeme)) :
    patternsOf ([.mark m].intercalate ls) = ls.flatMap patternsOf := by
  induction ls with
  | nil => rfl
  | cons l ls ih =>
    cases ls with
    | nil => simp
    | cons r ls => simpa using ih

theorem DerivesValue.patternsOf_eq {l : List Lexeme} {p : Pattern} (h : DerivesValue l p) :
    patternsOf l = [p] := by
  induction h with
  | plain p => rfl
  | group _ ih => simpa using ih

theorem masks_of_parts {op : Operator} {m : Mark} {parts : List (List Lexeme × Expr)}
    (h : ∀ part ∈ parts, part.2.masks = (patternsOf part.1).map Mask.ofPattern) :
    (Expr.chain op (parts.map Prod.snd)).masks =
      (patternsOf ([.mark m].intercalate (parts.map Prod.fst))).map Mask.ofPattern := by
  rw [Expr.masks_chain, patternsOf_intercalate, List.map_flatMap, List.flatMap_map,
    List.flatMap_map]
  exact List.flatMap_congr h

namespace Derives

/-- No value is lost, added or moved on the way from a text to its tree. -/
theorem masks_eq {place : Place} {level : Level} {l : List Lexeme} {e : Expr}
    (h : Derives place level l e) : e.masks = (patternsOf l).map Mask.ofPattern := by
  induction h with
  | or _ _ ih => exact masks_of_parts ih
  | and _ _ ih => exact masks_of_parts ih
  | not _ ih => simpa [Expr.masks, Expr.masksOfAll] using ih
  | group _ ih => simpa using ih
  | value p => rfl
  | node p _ ih => simpa [Expr.masks] using ih
  | presence key => simp [Expr.masks, key.patternsOf_eq]
  | property key value => simp [Expr.masks, key.patternsOf_eq, value.patternsOf_eq]

theorem conjunction {place : Place} {l : List Lexeme} {e : Expr} (h : Derives place .unary l e) :
    Derives place .and l e := by
  simpa using @Derives.and place [(l, e)] (by simp) (by simpa using h)

theorem disjunction {place : Place} {l : List Lexeme} {e : Expr} (h : Derives place .and l e) :
    Derives place .or l e := by
  simpa using @Derives.or place [(l, e)] (by simp) (by simpa using h)

theorem parts_of_chain_eq_value {op : Operator} {parts : List (List Lexeme × Expr)} {m : Mask}
    (h : Expr.chain op (parts.map Prod.snd) = .value m) : ∃ l, parts = [(l, .value m)] := by
  rw [Expr.chain_eq_value_iff] at h
  obtain ⟨part, rfl, he⟩ := List.map_eq_singleton_iff.mp h
  exact ⟨part.1, by rw [← he]⟩

/-- Only values in parentheses stand for bare values. -/
theorem derivesValue {place : Place} {level : Level} {l : List Lexeme} {m : Mask}
    (h : Derives place level l (.value m)) : ∃ p, DerivesValue l p ∧ m = .ofPattern p := by
  generalize he : Expr.value m = e at h
  induction h with
  | or _ _ ih =>
    obtain ⟨l, rfl⟩ := parts_of_chain_eq_value he.symm
    simpa using ih (l, .value m) (by simp) rfl
  | and _ _ ih =>
    obtain ⟨l, rfl⟩ := parts_of_chain_eq_value he.symm
    simpa using ih (l, .value m) (by simp) rfl
  | not => cases he
  | group _ ih =>
    obtain ⟨p, hp, hm⟩ := ih he
    exact ⟨p, hp.group, hm⟩
  | value p => exact ⟨p, .plain p, Expr.value.inj he⟩
  | node => cases he
  | @presence l p key => exact ⟨p, key, Expr.value.inj he⟩
  | property => cases he

end Derives

end PathFilter
