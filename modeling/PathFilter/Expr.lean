import PathFilter.Mask

namespace PathFilter

inductive Operator where
  | and
  | or
  | not
deriving DecidableEq, Repr

/-- An expression of a kind that is not one of those of filters, by the name of its kind, its text
and its description. -/
structure Foreign where
  name : String
  text : String
  description : String
deriving DecidableEq, Repr

/-- What a segment of a filter, or the filter inside a bracket, asks for. The type admits trees
that no filter text produces: any number of operands, and kinds in places where they mean nothing. -/
inductive Expr where
  /-- the segment's text, or inside brackets the key of some property -/
  | value (m : Mask)
  | apply (op : Operator) (operands : List Expr)
  /-- some property whose key and value fit -/
  | property (key value : Mask)
  /-- a segment's text together with a filter on the node's properties -/
  | node (value : Mask) (filter : Expr)
  /-- every segment -/
  | always
  /-- an expression that has no meaning here -/
  | foreign (f : Foreign)

namespace Expr

instance : Inhabited Expr := ⟨.always⟩

/-- The value `**` alone, under no operator and with no bracket. -/
def isEverythingBelow : Expr → Bool
  | .value m => m == Mask.everythingBelow
  | _ => false

def isValue : Expr → Bool
  | .value _ => true
  | _ => false

def isForeign : Expr → Bool
  | .foreign _ => true
  | _ => false

mutual

/-- Equality of two trees, node by node. -/
def same : Expr → Expr → Bool
  | .value m, .value n => m == n
  | .apply op es, .apply op' fs => op == op' && sameAll es fs
  | .property k v, .property k' v' => k == k' && v == v'
  | .node v e, .node v' e' => v == v' && same e e'
  | .always, .always => true
  | .foreign f, .foreign g => f == g
  | _, _ => false

def sameAll : List Expr → List Expr → Bool
  | [], [] => true
  | e :: es, f :: fs => same e f && sameAll es fs
  | _, _ => false

end

mutual

theorem same_iff : ∀ e f : Expr, same e f = true ↔ e = f
  | .value m, f => by cases f <;> simp [same]
  | .apply op es, f => by cases f <;> simp [same, sameAll_iff es]
  | .property k v, f => by cases f <;> simp [same]
  | .node v e, f => by cases f <;> simp [same, same_iff e]
  | .always, f => by cases f <;> simp [same]
  | .foreign g, f => by cases f <;> simp [same]

theorem sameAll_iff : ∀ es fs : List Expr, sameAll es fs = true ↔ es = fs
  | [], fs => by cases fs <;> simp [sameAll]
  | e :: es, fs => by cases fs <;> simp [sameAll, same_iff e, sameAll_iff es]

end

instance : DecidableEq Expr := fun e f => decidable_of_iff _ (same_iff e f)

/-- Induction on a tree, with the hypothesis at hand for every operand of an operator. -/
@[elab_as_elim]
theorem tree_induction {P : Expr → Prop} (value : ∀ m, P (.value m))
    (apply : ∀ op es, (∀ e ∈ es, P e) → P (.apply op es)) (property : ∀ k v, P (.property k v))
    (node : ∀ v e, P e → P (.node v e)) (always : P .always) (foreign : ∀ f, P (.foreign f))
    (e : Expr) : P e :=
  @Expr.rec P (fun es => ∀ e ∈ es, P e) value apply property node always foreign nofun
    (fun _ _ head tail => List.forall_mem_cons.mpr ⟨head, tail⟩) e

end Expr

end PathFilter
