import Mathlib.Tactic.SplitIfs
import PathFilter.Json
import PathFilter.Proofs.PlainText

namespace PathFilter

namespace Plain

theorem of_int (n : Int) : Plain (toString n) := by
  cases n with
  | ofNat n => exact .of_toString n
  | negSucc n => exact (by decide : Plain "-").append (.of_toString (n + 1))

end Plain

namespace Value

/-- A value with nothing in it that is of another type than those of JSON. -/
inductive IsData : Value → Prop
  | null : IsData .null
  | bool (b : Bool) : IsData (.bool b)
  | int (n : Int) : IsData (.int n)
  | text (s : String) : IsData (.text s)
  | list {items : List Value} (h : ∀ v ∈ items, IsData v) : IsData (.list items)
  | fields {entries : List (String × Value)} (h : ∀ entry ∈ entries, IsData entry.2) :
      IsData (.fields entries)

end Value

/-- A text without controls, and so without a character that ends a line of output. -/
def Unbroken (s : String) : Prop := ∀ c ∈ s.toList, 0x20 ≤ c.toNat

theorem le_of_isPrintable {c : Char} (h : isPrintable c = true) : 0x20 ≤ c.toNat := by
  unfold isPrintable at h
  split at h
  next =>
    rw [Bool.and_eq_true, decide_eq_true_eq] at h
    exact h.1
  next high => omega

namespace Unbroken

theorem of_plain {s : String} (h : Plain s) : Unbroken s := fun c hc => le_of_isPrintable (h c hc)

theorem append {s t : String} (hs : Unbroken s) (ht : Unbroken t) : Unbroken (s ++ t) := by
  intro c hc
  rw [String.toList_append, List.mem_append] at hc
  exact hc.elim (hs c) (ht c)

theorem intercalate {separator : String} (h : Unbroken separator) {parts : List String}
    (hparts : ∀ part ∈ parts, Unbroken part) : Unbroken (separator.intercalate parts) := by
  induction parts with
  | nil => nofun
  | cons part parts ih =>
    obtain ⟨hpart, hparts⟩ := List.forall_mem_cons.mp hparts
    cases parts with
    | nil => simpa using hpart
    | cons next parts => simpa using (hpart.append h).append (ih hparts)

end Unbroken

namespace Json

theorem le_of_mem_encodeChar {c d : Char} (h : d ∈ encodeChar c) : 0x20 ≤ d.toNat := by
  have pair : ∀ {a b : Char}, isPrintable a = true → isPrintable b = true → d ∈ [a, b] →
      0x20 ≤ d.toNat := fun ha hb h => le_of_isPrintable (Quoted.isPrintable_of_mem_pair ha hb h)
  unfold encodeChar at h
  split_ifs at h with hc _ _ _ _ _ hcontrol
  · obtain rfl | rfl := hc <;> exact pair rfl rfl h
  · exact pair rfl rfl h
  · exact pair rfl rfl h
  · exact pair rfl rfl h
  · exact pair rfl rfl h
  · exact pair rfl rfl h
  · obtain rfl | rfl | h := by simpa only [List.mem_cons] using h
    · decide
    · decide
    · exact le_of_isPrintable (Quoted.isPrintable_of_mem_hex h)
  · rw [List.mem_singleton.mp h]
    omega

theorem unbroken_quote (s : String) : Unbroken (quote s) := by
  intro c hc
  simp only [quote, String.toList_ofList, List.cons_append, List.mem_cons, List.mem_append,
    List.mem_flatMap, List.not_mem_nil, or_false] at hc
  obtain rfl | ⟨d, -, h⟩ | rfl := hc
  · decide
  · exact le_of_mem_encodeChar h
  · decide

theorem comma : Unbroken ", " := .of_plain (by decide)

theorem lineItems_eq_map (items : List Value) : lineItems items = items.map line := by
  induction items with
  | nil => rfl
  | cons v items ih => rw [lineItems, ih, List.map_cons]

def lineEntry (entry : String × Value) : String := quote entry.1 ++ ": " ++ line entry.2

theorem lineEntries_eq_map (entries : List (String × Value)) :
    lineEntries entries = entries.map lineEntry := by
  induction entries with
  | nil => rfl
  | cons entry entries ih => rw [lineEntries, ih, List.map_cons, lineEntry]

theorem unbroken_lineEntry {entry : String × Value} (h : Unbroken (line entry.2)) :
    Unbroken (lineEntry entry) := by
  have colon : Unbroken ": " := .of_plain (by decide)
  exact ((unbroken_quote entry.1).append colon).append h

theorem unbroken_line {v : Value} (data : v.IsData) : Unbroken (line v) := by
  induction data with
  | null => exact .of_plain (by decide)
  | bool b => cases b <;> exact .of_plain (by decide)
  | int n => exact .of_plain (.of_int n)
  | text s => exact unbroken_quote s
  | list _ ih =>
    rw [line, lineItems_eq_map]
    have parts := Unbroken.intercalate comma (List.forall_mem_map.mpr ih)
    exact ((Unbroken.of_plain (by decide)).append parts).append (.of_plain (by decide))
  | fields _ ih =>
    rw [line, lineEntries_eq_map]
    have parts := Unbroken.intercalate comma (List.forall_mem_map.mpr fun entry hentry =>
      unbroken_lineEntry (ih entry hentry))
    exact ((Unbroken.of_plain (by decide)).append parts).append (.of_plain (by decide))

end Json

end PathFilter
