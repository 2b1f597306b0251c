import PathFilter.Proofs.Spelling
import Mathlib.Data.List.Basic

namespace PathFilter

/-- How many backslashes end a text. -/
def trailingEscapes (t : List Char) : Nat := (t.reverse.takeWhile (· == '\\')).length

/-- Whether a character stands for what it is at an index. Backslashes pair up from the left, so it
does unless an odd number of them stands before it. -/
def Unescaped (t : List Char) (i : Nat) : Prop := trailingEscapes (t.take i) % 2 = 0

instance (t : List Char) (i : Nat) : Decidable (Unescaped t i) :=
  inferInstanceAs (Decidable (_ = 0))

/-- How often an unescaped `c` stands before an index. -/
def unescapedBefore (t : List Char) (c : Char) (i : Nat) : Nat :=
  (List.range i).countP fun j => t[j]? = some c ∧ Unescaped t j

/-- How many brackets are open before an index; escaped ones do not count. -/
def depthAt (t : List Char) (i : Nat) : Int := unescapedBefore t '[' i - unescapedBefore t ']' i

section

variable {t : List Char} {c : Char} {i : Nat}

theorem trailingEscapes_append_singleton (t : List Char) (c : Char) :
    trailingEscapes (t ++ [c]) = if c = '\\' then trailingEscapes t + 1 else 0 := by
  unfold trailingEscapes
  rw [List.reverse_append, List.reverse_singleton, List.singleton_append, List.takeWhile_cons]
  by_cases hc : c = '\\'
  · simp [hc]
  · simp [hc]

theorem unescaped_zero (t : List Char) : Unescaped t 0 := by
  simp [Unescaped, trailingEscapes]

theorem trailingEscapes_take_succ (hc : t[i]? = some c) :
    trailingEscapes (t.take (i + 1)) =
      if c = '\\' then trailingEscapes (t.take i) + 1 else 0 := by
  rw [List.take_add_one, hc, Option.toList_some, trailingEscapes_append_singleton]

/-- Only an unescaped backslash escapes the character after it. -/
theorem unescaped_succ_iff (hc : t[i]? = some c) :
    Unescaped t (i + 1) ↔ ¬(c = '\\' ∧ Unescaped t i) := by
  unfold Unescaped
  rw [trailingEscapes_take_succ hc]
  by_cases hescape : c = '\\'
  · simp only [hescape, ↓reduceIte, true_and]
    omega
  · simp [hescape]

theorem unescaped_succ_mark {m : Mark} (hm : t[i]? = some m.char) : Unescaped t (i + 1) := by
  have hescape : m.char ≠ '\\' := by cases m <;> decide
  exact (unescaped_succ_iff hm).mpr fun h => hescape h.1

theorem unescapedBefore_succ (t : List Char) (c : Char) (i : Nat) :
    unescapedBefore t c (i + 1) =
      unescapedBefore t c i + if t[i]? = some c ∧ Unescaped t i then 1 else 0 := by
  unfold unescapedBefore
  rw [List.range_succ, List.countP_append, List.countP_singleton]
  simp only [decide_eq_true_eq]

theorem depthAt_zero (t : List Char) : depthAt t 0 = 0 := rfl

/-- A character that is no bracket of its own leaves the depth as it was. -/
theorem depthAt_succ_of_escaped (h : ¬Unescaped t i) : depthAt t (i + 1) = depthAt t i := by
  simp [depthAt, unescapedBefore_succ, h]

theorem depthAt_succ (h : Unescaped t i) (hc : t[i]? = some c) :
    depthAt t (i + 1) =
      if c = '[' then depthAt t i + 1 else if c = ']' then depthAt t i - 1 else depthAt t i := by
  simp only [depthAt, unescapedBefore_succ, hc, h, and_true, Option.some.injEq]
  by_cases hopen : c = '['
  · subst hopen
    simp
    omega
  · by_cases hclose : c = ']'
    · subst hclose
      simp
      omega
    · simp [hopen, hclose]

theorem depthAt_succ_mark {m : Mark} (h : Unescaped t i) (hm : t[i]? = some m.char) :
    depthAt t (i + 1) = m.depthAfter (depthAt t i) := by
  rw [depthAt_succ h hm]
  cases m <;> rfl

end

end PathFilter
