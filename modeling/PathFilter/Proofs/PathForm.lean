import PathFilter.Filter
import PathFilter.Proofs.Progress
import Mathlib.Data.List.Basic

namespace PathFilter

theorem cutAt_eq_splitOnP (isCut : Char → Bool) (t : List Char) :
    cutAt isCut t = t.splitOnP isCut := by
  induction t with
  | nil => rfl
  | cons c t ih =>
    rw [List.splitOnP_cons_eq_if_modifyHead]
    cases h : isCut c with
    | true => simp [cutAt, h, ih]
    | false =>
      obtain ⟨part, parts, he, hc⟩ := cutAt_cons_of_not h t
      rw [hc, ← ih, he]
      simp

theorem pathParts_eq_splitOn (t : List Char) : pathParts t = t.splitOn '/' :=
  cutAt_eq_splitOnP _ t

/-- Each segment selects its part, as far as there are both. -/
def Agrees (pairs : List (String × String)) (segments : List Expr) (parts : List (List Char)) :
    Prop :=
  ∀ (i : Nat) (hs : i < segments.length) (hp : i < parts.length),
    segments[i].selects pairs parts[i] = .ok true

section

variable {pairs : List (String × String)} {segments : List Expr} {parts : List (List Char)}

theorem agrees_cons {e : Expr} {part : List Char} :
    Agrees pairs (e :: segments) (part :: parts) ↔
      e.selects pairs part = .ok true ∧ Agrees pairs segments parts := by
  constructor
  · intro h
    refine ⟨h 0 (by simp) (by simp), fun i hs hp => ?_⟩
    exact h (i + 1) (by simpa using hs) (by simpa using hp)
  · rintro ⟨head, tail⟩ i hs hp
    cases i with
    | zero => exact head
    | succ i => exact tail i (by simpa using hs) (by simpa using hp)

/-- The walk goes on for as long as each segment selects its part. -/
theorem walk_eq_ok_true_iff {below : Bool} : walk pairs below segments parts = .ok true ↔
    Agrees pairs segments parts ∧ (parts.length ≤ segments.length ∨ below = true) := by
  induction segments generalizing parts with
  | nil =>
    cases parts with
    | nil => simp [walk, Agrees]
    | cons part parts => simp [walk, Agrees]
  | cons e es ih =>
    cases parts with
    | nil => simp [walk, Agrees]
    | cons part parts =>
      rw [walk, bind_eq_ok_iff, agrees_cons, List.length_cons, List.length_cons,
        Nat.add_le_add_iff_right]
      constructor
      · rintro ⟨b, hb, hrest⟩
        cases b with
        | true =>
          obtain ⟨hagrees, hdepth⟩ := ih.mp hrest
          exact ⟨⟨hb, hagrees⟩, hdepth⟩
        | false => cases hrest
      · rintro ⟨⟨hb, hagrees⟩, hdepth⟩
        exact ⟨true, hb, ih.mpr ⟨hagrees, hdepth⟩⟩

theorem reachesBelow_iff :
    reachesBelow segments = true ↔ segments.getLast? = some (.value .everythingBelow) := by
  unfold reachesBelow
  cases segments.getLast? with
  | none => simp
  | some e => cases e <;> simp [Expr.isEverythingBelow]

theorem matchPath_of_root {path : String} {rest : List Char} (root : path.toList = '/' :: rest)
    (bag : PropertyBag) : matchPath segments path bag =
      (walk bag.pairs (reachesBelow segments) segments (rest.splitOn '/')).mapError .evaluation := by
  simp only [matchPath, root, pathParts_eq_splitOn]

theorem matchPath_root_iff {path : String} {rest : List Char} {bag : PropertyBag}
    (root : path.toList = '/' :: rest) : matchPath segments path bag = .ok true ↔
      Agrees bag.pairs segments (rest.splitOn '/') ∧
        ((rest.splitOn '/').length ≤ segments.length ∨
          segments.getLast? = some (.value .everythingBelow)) := by
  rw [matchPath_of_root root, mapError_eq_ok_iff, walk_eq_ok_true_iff, reachesBelow_iff]

theorem exists_matchPath_of_root (valid : validateSegments segments = .ok ()) {path : String}
    {rest : List Char} (root : path.toList = '/' :: rest) (bag : PropertyBag) :
    ∃ b, matchPath segments path bag = .ok b := by
  obtain ⟨b, hb⟩ := walk_of_valid (validateSegments_iff.mp valid) bag.pairs (reachesBelow segments)
    (rest.splitOn '/')
  rw [matchPath_of_root root]
  exact ⟨b, mapError_eq_ok_iff.mpr hb⟩

theorem matchPath_of_not_root {path : String} (h : path.toList.head? ≠ some '/')
    (bag : PropertyBag) : matchPath segments path bag = .error (.invalidPath path) := by
  unfold matchPath
  split
  next rest root => exact absurd (by rw [root, List.head?_cons]) h
  next => rfl

theorem exists_root_of_matchPath {path : String} {bag : PropertyBag} {b : Bool}
    (h : matchPath segments path bag = .ok b) : ∃ rest, path.toList = '/' :: rest := by
  unfold matchPath at h
  split at h
  next rest root => exact ⟨rest, root⟩
  next => contradiction

/-- A path of one part is selected by one segment if the segment selects the part. -/
theorem matchPath_singleton {e : Expr} {t : String} (whole : '/' ∉ t.toList) (bag : PropertyBag) :
    matchPath [e] ("/" ++ t) bag = (e.selects bag.pairs t.toList).mapError .evaluation := by
  have root : ("/" ++ t).toList = '/' :: t.toList := by simp
  rw [matchPath_of_root root, List.splitOn_eq_singleton whole]
  congr 1
  rw [walk]
  cases e.selects bag.pairs t.toList with
  | error _ => rfl
  | ok b => cases b <;> rfl

end

theorem Filter.selects_eq_ok_iff {f : Filter} {path : String} {source : PropertySource} {b : Bool} :
    f.selects (.text path) source = .ok b ↔
      ∃ bag, PropertyBag.ofSource source = .ok bag ∧ matchPath f.segments path bag = .ok b := by
  simp only [Filter.selects, bind_eq_ok_iff, mapError_eq_ok_iff, Filter.selectsPath]

/-- A path is selected if each segment selects its part, and if the path goes no deeper than the
segments unless the last of them is `**` by itself. -/
theorem matchPath_closedForm {segments : List Expr} (valid : validateSegments segments = .ok ())
    {path : String} {rest : List Char} (root : path.toList = '/' :: rest) (bag : PropertyBag) :
    let parts := rest.splitOn '/'
    ∃ b, matchPath segments path bag = .ok b ∧
      (b = true ↔
        (∀ (i : Nat) (hs : i < segments.length) (hp : i < parts.length),
          segments[i].selects bag.pairs parts[i] = .ok true) ∧
        (parts.length ≤ segments.length ∨
          segments.getLast? = some (.value ⟨['.', '*', '.', '*']⟩))) := by
  intro parts
  obtain ⟨b, hb⟩ := exists_matchPath_of_root valid root bag
  have hroot := @matchPath_root_iff segments _ _ bag root
  rw [hb, Except.ok.injEq] at hroot
  exact ⟨b, hb, hroot⟩

theorem matchPath_closedForm_below :
    let segments : List Expr := [.apply .not [.value ⟨['a']⟩], .value ⟨['.', '*', '.', '*']⟩]
    let parts := "b//c".toList.splitOn '/'
    validateSegments segments = .ok () ∧ "/b//c".toList = '/' :: "b//c".toList ∧
      ∃ b, matchPath segments "/b//c" ⟨[]⟩ = .ok b ∧
        (b = true ↔
          (∀ (i : Nat) (hs : i < segments.length) (hp : i < parts.length),
            segments[i].selects [] parts[i] = .ok true) ∧
          (parts.length ≤ segments.length ∨
            segments.getLast? = some (.value ⟨['.', '*', '.', '*']⟩))) :=
  ⟨rfl, by simp, matchPath_closedForm rfl (by simp) ⟨[]⟩⟩

end PathFilter
