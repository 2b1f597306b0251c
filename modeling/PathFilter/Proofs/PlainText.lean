import Mathlib.Tactic.SplitIfs
import PathFilter.Quoted
import PathFilter.ScreenLines

namespace PathFilter

namespace ScreenLines

end ScreenLines

namespace Quoted

theorem isPrintable_hexDigit {n : Nat} (h : n < 16) : isPrintable (hexDigit n) = true := by
  have all : ∀ n < 16, isPrintable (hexDigit n) = true := by decide
  exact all n h

theorem isPrintable_of_mem_hex {c : Char} {width n : Nat} (h : c ∈ hex width n) :
    isPrintable c = true := by
  induction width generalizing n with
  | zero => contradiction
  | succ width ih =>
    rw [hex, List.mem_append, List.mem_singleton] at h
    obtain h | rfl := h
    · exact ih h
    · exact isPrintable_hexDigit (Nat.mod_lt n (by decide))

/-- Two characters that are shown as they are. -/
theorem isPrintable_of_mem_pair {a b d : Char} (ha : isPrintable a = true)
    (hb : isPrintable b = true) (h : d ∈ [a, b]) : isPrintable d = true := by
  simp only [List.mem_cons, List.not_mem_nil, or_false] at h
  obtain rfl | rfl := h <;> assumption

end Quoted

theorem isPrintable_of_isDigit {c : Char} (h : c.isDigit = true) : isPrintable c = true := by
  have hbounds : 48 ≤ c.toNat ∧ c.toNat ≤ 57 := by
    simpa [Char.isDigit, UInt32.le_iff_toNat_le] using h
  have hascii : c.toNat < 0x80 := by omega
  simp only [isPrintable, if_pos hascii, Bool.and_eq_true, decide_eq_true_eq]
  omega

/-- A text of which each character is shown as it is when the text is quoted. -/
def Plain (s : String) : Prop := ∀ c ∈ s.toList, isPrintable c = true

namespace Plain

instance (s : String) : Decidable (Plain s) :=
  decidable_of_iff (s.toList.all isPrintable = true) List.all_eq_true

theorem append {s t : String} (hs : Plain s) (ht : Plain t) : Plain (s ++ t) := by
  intro c hc
  rw [String.toList_append, List.mem_append] at hc
  exact hc.elim (hs c) (ht c)

theorem of_toString (n : Nat) : Plain (toString n) := by
  intro c hc
  rw [Nat.toString_eq_repr, Nat.toList_repr] at hc
  exact isPrintable_of_isDigit (Nat.isDigit_of_mem_toDigits (by decide) (by decide) hc)

end Plain

end PathFilter
