import PathFilter.PathWalk
import PathFilter.Proofs.Validity
import PathFilter.Proofs.Verdicts

namespace PathFilter

namespace Expr

/-- What breaks no rule inside a bracket has a truth value there. -/
theorem holds_of_valid {lastSegment : Bool} {e : Expr} (h : e.Valid lastSegment .bracket)
    (pairs : List (String × String)) : ∃ b, holds pairs e = .ok b := by
  generalize hplace : Place.bracket = place at h
  induction h with
  | value => cases hplace
  | presence => exact ⟨_, rfl⟩
  | property => exact ⟨_, rfl⟩
  | node => cases hplace
  | always => exact ⟨_, rfl⟩
  | apply count _ ih =>
    rw [holds_apply]
    exact Operator.verdict_of_each count fun e he => ih e he hplace

/-- What breaks no rule in a segment selects it or does not. -/
theorem selects_of_valid {lastSegment : Bool} {e : Expr} (h : e.Valid lastSegment .segment)
    (pairs : List (String × String)) (segment : List Char) :
    ∃ b, selects pairs segment e = .ok b := by
  generalize hplace : Place.segment = place at h
  induction h with
  | value => exact ⟨_, rfl⟩
  | presence => cases hplace
  | property => cases hplace
  | node _ filter =>
    rw [selects]
    split
    · exact holds_of_valid filter pairs
    · exact ⟨false, rfl⟩
  | always => exact ⟨true, rfl⟩
  | apply count _ ih =>
    rw [selects_apply]
    exact Operator.verdict_of_each count fun e he => ih e he hplace

end Expr

theorem walk_of_valid {segments : List Expr} (h : ValidSegments segments)
    (pairs : List (String × String)) (below : Bool) (parts : List (List Char)) :
    ∃ b, walk pairs below segments parts = .ok b := by
  induction h generalizing parts with
  | nil => cases parts <;> exact ⟨_, rfl⟩
  | cons head _ ih =>
    cases parts with
    | nil => exact ⟨true, rfl⟩
    | cons part parts =>
      obtain ⟨b, hb⟩ := Expr.selects_of_valid head pairs part
      rw [walk]
      cases b with
      | true => simpa [hb, bind, Except.bind] using ih parts
      | false => exact ⟨false, by simp [hb, bind, Except.bind]; rfl⟩

/-- Segments that pass the check are compared with every path from the root without an error, and
any other path is refused as such. -/
theorem matchPath_of_validateSegments {segments : List Expr}
    (h : validateSegments segments = .ok ()) (path : String) (bag : PropertyBag) :
    (path.toList.head? = some '/' ∧ ∃ b, matchPath segments path bag = .ok b) ∨
      (path.toList.head? ≠ some '/' ∧
        matchPath segments path bag = .error (.invalidPath path)) := by
  unfold matchPath
  split
  next rest hpath =>
    obtain ⟨b, hb⟩ := walk_of_valid (validateSegments_iff.mp h) bag.pairs (reachesBelow segments)
      (pathParts rest)
    exact .inl ⟨by simp [hpath], b, by rw [hb]; rfl⟩
  next hpath =>
    refine .inr ⟨fun hhead => ?_, rfl⟩
    obtain ⟨rest, hrest⟩ := List.head?_eq_some_iff.mp hhead
    exact hpath rest hrest

theorem matchPath_of_validateSegments_node :
    let segments : List Expr :=
      [.always, .node .everythingBelow (.apply .not [.property ⟨['k']⟩ ⟨[]⟩])]
    validateSegments segments = .ok () ∧
      (("/a/b".toList.head? = some '/' ∧ ∃ b, matchPath segments "/a/b" ⟨[]⟩ = .ok b) ∨
        ("/a/b".toList.head? ≠ some '/' ∧
          matchPath segments "/a/b" ⟨[]⟩ = .error (.invalidPath "/a/b"))) :=
  ⟨rfl, matchPath_of_validateSegments rfl "/a/b" ⟨[]⟩⟩

end PathFilter
