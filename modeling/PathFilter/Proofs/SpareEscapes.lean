import PathFilter.Proofs.DanglingEscape
import PathFilter.Proofs.Tiling

namespace PathFilter

/-- A text with a backslash put in before an index. -/
def escapeAt (t : List Char) (i : Nat) : List Char := t.take i ++ '\\' :: t.drop i

/-- The character stands for itself at an index, though no backslash precedes it. -/
structure StandsForItself (t : List Char) (i : Nat) (c : Char) : Prop where
  char : t[i]? = some c
  bare : Unescaped t i
  literal : c ∉ Pattern.special ∨ c = '/' ∧ 0 < depthAt t i

namespace Lexing

section

variable {t a rest : List Char} {c : Char} {i : Nat}

/-- What stands after a part of a text that is read as a whole is read where that part ends, with
the brackets that are open there. -/
theorem exists_scan_append {pos : Nat} {depth : Int} {literal : Literal}
    (whole : (scan a pos depth literal).dangling = none) (hdrop : t.drop pos = a ++ rest)
    (settled : Unescaped t pos) (hdepth : depthAt t pos = depth) :
    ∃ front later, ∀ v, scan (a ++ v) pos depth literal =
      (scan v (pos + a.length) (depthAt t (pos + a.length)) later).prepend front := by
  induction a, pos, depth, literal using scan_induction with
  | nil pos depth literal => exact ⟨[], literal, fun v => by subst hdepth; rfl⟩
  | dangling pos depth literal => cases whole
  | @piece depth x w head u pos literal ih =>
    rw [scan_piece head] at whole
    rw [List.append_assoc] at hdrop
    subst hdepth
    have markless := Markless.of_piece settled hdrop head
    obtain ⟨front, later, hscan⟩ :=
      ih whole (drop_append_length hdrop) markless.settled markless.depth
    refine ⟨front, later, fun v => ?_⟩
    rw [List.append_assoc, scan_piece head, hscan, List.length_append, Nat.add_assoc]
  | @mark depth m live u pos literal ih =>
    rw [scan_mark live] at whole
    have hchar := getElem?_of_drop hdrop
    have settled' : Unescaped t (pos + 1) := unescaped_succ_mark hchar
    have hdepth' : depthAt t (pos + 1) = m.depthAfter depth := by
      rw [depthAt_succ_mark settled hchar, hdepth]
    obtain ⟨front, later, hscan⟩ :=
      ih whole (drop_append_length (w := [m.char]) hdrop) settled' hdepth'
    refine ⟨literal.tokens ++ [⟨.mark m, pos⟩] ++ front, later, fun v => ?_⟩
    rw [List.cons_append, scan_mark live, hscan, List.length_cons, Nat.add_right_comm,
      Nat.add_assoc]
    simp [prepend]

theorem exists_scan_take (settled : Unescaped t i) (hi : i ≤ t.length) : ∃ front later,
    ∀ v, ofFilter (t.take i ++ v) = (scan v i (depthAt t i) later).prepend front := by
  have whole : (ofFilter (t.take i)).dangling = none := by
    rw [dangling_ofFilter, if_neg]
    unfold Unescaped at settled
    omega
  have hdrop : t.drop 0 = t.take i ++ t.drop i := by rw [List.drop_zero, List.take_append_drop]
  obtain ⟨front, later, hscan⟩ :=
    exists_scan_append whole hdrop (unescaped_zero t) (depthAt_zero t)
  rw [List.length_take_of_le hi, Nat.zero_add] at hscan
  exact ⟨front, later, hscan⟩

/-- Where a scan begins shows in positions only. -/
theorem scan_later (t : List Char) (pos shift : Nat) (depth : Int) {literal literal' : Literal}
    (same : literal'.pieces = literal.pieces) :
    (scan t (pos + shift) depth literal').lexemes = (scan t pos depth literal).lexemes ∧
      (scan t (pos + shift) depth literal').dangling =
        (scan t pos depth literal).dangling.map (· + shift) := by
  induction t, pos, depth, literal using scan_induction generalizing literal' with
  | nil pos depth literal =>
    simp only [scan, lexemes, lexemes_literal, same, Option.map_none, and_self]
  | dangling pos depth literal => exact ⟨rfl, rfl⟩
  | @piece depth x w head u pos literal ih =>
    have hsame : (literal'.push (pos + shift) x).pieces = (literal.push pos x).pieces := by
      simp [Literal.push, same]
    rw [scan_piece head, scan_piece head, Nat.add_right_comm]
    exact ih hsame
  | mark live u pos literal ih =>
    obtain ⟨hlexemes, hdangling⟩ := ih (Eq.refl Literal.none.pieces)
    rw [scan_mark live, scan_mark live, Nat.add_right_comm, lexemes_prepend, lexemes_prepend,
      dangling_prepend, dangling_prepend, hlexemes, hdangling]
    simp only [List.map_append, lexemes_literal, same, List.map_cons, and_self]

theorem scan_of_standsForItself (h : StandsForItself t i c) (v : List Char) (later : Literal) :
    scan (c :: v) i (depthAt t i) later =
      scan v (i + 1) (depthAt t i) (later.push i (.literal c)) := by
  rcases h.literal with plain | ⟨rfl, hdepth⟩
  · exact scan_plain (by simpa using plain) v i later
  · exact scan_slash hdepth v i later

/-- A backslash before a character that stands for itself leaves the types and the values of the
tokens as they are. -/
theorem lexemes_escapeAt (h : StandsForItself t i c) :
    (ofFilter (escapeAt t i)).lexemes = (ofFilter t).lexemes ∧
      (ofFilter (escapeAt t i)).dangling = (ofFilter t).dangling.map (· + 1) := by
  obtain ⟨hi, hc⟩ := List.getElem?_eq_some_iff.mp h.char
  have hdrop : t.drop i = c :: t.drop (i + 1) := by rw [List.drop_eq_getElem_cons hi, hc]
  obtain ⟨front, later, hscan⟩ := exists_scan_take h.bare (Nat.le_of_lt hi)
  have hbare := hscan (t.drop i)
  rw [List.take_append_drop, hdrop, scan_of_standsForItself h] at hbare
  rw [escapeAt, hscan, hdrop, scan_escaped, hbare, lexemes_prepend, lexemes_prepend,
    dangling_prepend, dangling_prepend]
  obtain ⟨hlexemes, hdangling⟩ := scan_later (t.drop (i + 1)) (i + 1) 1 (depthAt t i)
    (Eq.refl (later.push i (.literal c)).pieces)
  exact ⟨congrArg _ hlexemes, hdangling⟩

end

end Lexing

theorem readSegments_escapeAt {t : List Char} {i : Nat} {c : Char} (h : StandsForItself t i c)
    {segments : List Expr} :
    readSegments (escapeAt t i) = .ok segments ↔ readSegments t = .ok segments := by
  obtain ⟨hlexemes, hdangling⟩ := Lexing.lexemes_escapeAt h
  rw [readSegments_eq_ok_iff, readSegments_eq_ok_iff, hdangling, Option.map_eq_none_iff,
    ← Lexing.lexemes, ← Lexing.lexemes, hlexemes]

theorem Filter.selects_of_segments {x y : Filter} (h : y.segments = x.segments) (path : Value)
    (properties : PropertySource) : y.selects path properties = x.selects path properties := by
  simp only [selects, selectsPath, h]

/-- A backslash before a character that stands for itself changes nothing: neither what the tokens
are, nor whether the filter is accepted, nor its segments, nor what it selects. -/
theorem parseFilter_escapeAt {f : String} {i : Nat} {c : Char}
    (h : StandsForItself f.toList i c) :
    let g := String.ofList (escapeAt f.toList i)
    (Lexing.ofFilter g.toList).lexemes = (Lexing.ofFilter f.toList).lexemes ∧
      (Lexing.ofFilter g.toList).dangling = (Lexing.ofFilter f.toList).dangling.map (· + 1) ∧
      (∀ segments, parseFilter g = .ok segments ↔ parseFilter f = .ok segments) ∧
      ∀ x y : Filter, x.text = f → y.text = g → y.segments = x.segments ∧
        ∀ path properties, y.selects path properties = x.selects path properties := by
  intro g
  have hg : g.toList = escapeAt f.toList i := String.toList_ofList
  obtain ⟨hlexemes, hdangling⟩ := Lexing.lexemes_escapeAt h
  have hparse : ∀ segments, parseFilter g = .ok segments ↔ parseFilter f = .ok segments := by
    intro segments
    rw [parseFilter_eq_ok_iff, parseFilter_eq_ok_iff, hg, readSegments_escapeAt h]
  rw [hg]
  refine ⟨hlexemes, hdangling, hparse, fun x y hx hy => ?_⟩
  have hsegments : y.segments = x.segments := by
    have hread := (hparse x.segments).mpr (hx ▸ x.parsed)
    rw [← hy, y.parsed] at hread
    exact Except.ok.inj hread
  exact ⟨hsegments, Filter.selects_of_segments hsegments⟩

theorem parseFilter_escapeAt_bracket :
    let f := "A\\\\[\\]k=\\[/v]"
    let g := String.ofList (escapeAt f.toList 10)
    StandsForItself f.toList 10 '/' ∧ g = "A\\\\[\\]k=\\[\\/v]" ∧
      (Lexing.ofFilter g.toList).lexemes = (Lexing.ofFilter f.toList).lexemes ∧
      (Lexing.ofFilter g.toList).dangling = (Lexing.ofFilter f.toList).dangling.map (· + 1) ∧
      (∀ segments, parseFilter g = .ok segments ↔ parseFilter f = .ok segments) ∧
      ∃ x y : Filter, x.text = f ∧ y.text = g ∧ y.segments = x.segments ∧
        ∀ path properties, y.selects path properties = x.selects path properties := by
  intro f g
  have depth : depthAt "A\\\\[\\]k=\\[/v]".toList 10 = 1 := by cbv
  have char : "A\\\\[\\]k=\\[/v]".toList[10]? = some '/' := by cbv
  have bare : Unescaped "A\\\\[\\]k=\\[/v]".toList 10 := by cbv
  have h : StandsForItself f.toList 10 '/' := ⟨char, bare, .inr ⟨rfl, depth.symm ▸ Int.zero_lt_one⟩⟩
  have hescape : escapeAt "A\\\\[\\]k=\\[/v]".toList 10 = "A\\\\[\\]k=\\[\\/v]".toList := by cbv
  have hg : g = "A\\\\[\\]k=\\[\\/v]" :=
    (congrArg String.ofList hescape).trans String.ofList_toList
  have parsed : parseFilter "A\\\\[\\]k=\\[/v]" = .ok [.node ⟨['A', '\\', '\\']⟩
    (.property ⟨['\\', ']', 'k']⟩ ⟨['\\', '[', '/', 'v']⟩)] := by cbv
  obtain ⟨hlexemes, hdangling, hparse, hselects⟩ := parseFilter_escapeAt h
  let x : Filter := ⟨_, _, parsed⟩
  let y : Filter := ⟨_, _, (hparse _).mpr parsed⟩
  exact ⟨h, hg, hlexemes, hdangling, hparse, x, y, rfl, rfl, hselects x y rfl rfl⟩

end PathFilter
