import PathFilter.Proofs.Joining
import PathFilter.Proofs.Tiling

namespace PathFilter

namespace Handover

/-- What is handed over are the tokens of the filter. -/
theorem tokens_scan (t : List Char) (pos : Nat) (depth : Int) (literal : Literal) :
    (scan t pos depth literal).map Handover.token = (Lexing.scan t pos depth literal).tokens := by
  induction t, pos, depth, literal using scan.induct with
  | case1 pos depth literal => simp [scan, Lexing.scan, each, Function.comp_def]
  | case2 pos depth literal => simp [scan, Lexing.scan]
  | case3 pos depth literal c rest ih => simpa [scan, Lexing.scan] using ih
  | case4 rest pos depth literal _ ih =>
    rw [scan.eq_def, Lexing.scan.eq_def]
    exact ih
  | case5 c rest pos depth literal hescape hstar hslash ih =>
    rw [scan.eq_def, Lexing.scan.eq_def]
    simpa [hescape, hstar, hslash] using ih
  | case6 c rest pos depth literal hescape hstar hslash m hm ih =>
    rw [scan.eq_def, Lexing.scan.eq_def]
    simp [hescape, hstar, hslash, hm, ih, each, Lexing.prepend, Function.comp_def]
  | case7 c rest pos depth literal hescape hstar hslash hm ih =>
    rw [scan.eq_def, Lexing.scan.eq_def]
    simpa [hescape, hstar, hslash, hm] using ih

def lexemes (handed : List Handover) : List Lexeme := handed.map fun x => x.token.lexeme

/-- What the scan has counted and the reader of its tokens has not: the mark that ends a value. -/
def ahead (handed later : List Handover) : Int :=
  match handed.getLast?, later with
  | some ⟨⟨.value _, _⟩, _⟩, ⟨⟨.mark m, _⟩, _⟩ :: _ => m.opens
  | _, _ => 0

/-- What holds between two tokens of a scan that begins where `depth` brackets are counted. -/
def Counts (depth : Int) (handed later : List Handover) : Prop :=
  (handed.getLast?.map Handover.depth).getD depth =
    depth + opened (lexemes handed) + ahead handed later

namespace Counts

variable {depth inner : Int} {handed later : List Handover} {m : Mark} {p : Pattern} {pos : Nat}
variable {x : Handover}

theorem nil (depth : Int) (later : List Handover) : Counts depth [] later := by
  simp [Counts, ahead, lexemes]

/-- Behind a mark both have counted the same. -/
theorem mark (h : Counts (m.depthAfter depth) handed later) :
    Counts depth (⟨⟨.mark m, pos⟩, m.depthAfter depth⟩ :: handed) later := by
  have hahead : ahead (⟨⟨.mark m, pos⟩, m.depthAfter depth⟩ :: handed) later =
      ahead handed later := by
    unfold ahead
    rw [List.getLast?_cons]
    cases handed.getLast? <;> rfl
  unfold Counts at h ⊢
  rw [List.getLast?_cons, Option.map_some, Option.getD_some, hahead, lexemes, List.map_cons,
    opened_mark, ← Int.add_assoc, ← m.depthAfter_eq, ← lexemes, ← h]
  cases handed.getLast? <;> rfl

/-- The mark that ends a value is counted before the value is handed over. -/
theorem value (p : Pattern) (start pos : Nat) (later : List Handover) :
    Counts depth [⟨⟨.value p, start⟩, m.depthAfter depth⟩]
      (⟨⟨.mark m, pos⟩, inner⟩ :: later) := by
  simp [Counts, ahead, lexemes, m.depthAfter_eq]

theorem value_cons (p : Pattern) (start : Nat) (h : Counts depth (x :: handed) later) :
    Counts depth (⟨⟨.value p, start⟩, inner⟩ :: x :: handed) later := by
  simpa [Counts, ahead, lexemes, List.getLast?_cons_cons] using h

end Counts

theorem counts_scan (t : List Char) (pos : Nat) (depth : Int) (literal : Literal)
    {handed later : List Handover} (h : scan t pos depth literal = handed ++ later) :
    Counts depth handed later := by
  induction t, pos, depth, literal using scan.induct generalizing handed with
  | case1 pos depth literal =>
    -- a value that the end of the text ends has no mark behind it
    rw [scan, Literal.tokens] at h
    cases handed with
    | nil => exact .nil depth later
    | cons x handed =>
      split at h
      next => cases h
      next =>
        obtain ⟨rfl, hrest⟩ := List.cons.inj h
        obtain ⟨rfl, rfl⟩ := List.append_eq_nil_iff.mp hrest.symm
        simp [Counts, ahead, lexemes]
  | case2 pos depth literal =>
    obtain ⟨rfl, -⟩ := List.append_eq_nil_iff.mp h.symm
    exact .nil depth later
  | case3 pos depth literal c rest ih => exact ih (by simpa [scan] using h)
  | case4 rest pos depth literal hescape ih =>
    rw [scan.eq_def] at h
    exact ih h
  | case5 c rest pos depth literal hescape hstar hslash ih =>
    rw [scan.eq_def] at h
    exact ih (by simpa [hescape, hstar, hslash] using h)
  | case6 c rest pos depth literal hescape hstar hslash m hm ih =>
    rw [scan.eq_def] at h
    simp only [hescape, hstar, hslash, hm, ↓reduceIte, Literal.tokens, each] at h
    split at h
    next =>
      rw [List.nil_append, List.map_singleton, List.singleton_append] at h
      cases handed with
      | nil => exact .nil depth later
      | cons x handed =>
        obtain ⟨rfl, hrest⟩ := List.cons.inj h
        exact .mark (ih hrest)
    next =>
      rw [List.singleton_append, List.map_cons, List.map_singleton, List.cons_append,
        List.singleton_append] at h
      rcases handed with _ | ⟨x, _ | ⟨y, handed⟩⟩
      · exact .nil depth later
      · obtain ⟨rfl, rfl⟩ := List.cons.inj h
        exact .value _ _ _ _
      · obtain ⟨rfl, hrest⟩ := List.cons.inj h
        obtain ⟨rfl, hlater⟩ := List.cons.inj hrest
        exact .value_cons _ _ (.mark (ih hlater))
  | case7 c rest pos depth literal hescape hstar hslash hm ih =>
    rw [scan.eq_def] at h
    exact ih (by simpa [hescape, hstar, hslash, hm] using h)

end Handover

theorem Tiles.depthAt_nextStart {t : List Char} {pos : Nat} {front back : List Token}
    (h : Tiles t pos (front ++ back)) (settled : Unescaped t pos) :
    depthAt t (nextStart t back) = depthAt t pos + opened (front.map Token.lexeme) := by
  induction front generalizing pos with
  | nil =>
    rw [List.nil_append] at h
    simp [h.nextStart_eq]
  | cons token front ih =>
    cases h with
    | @mark _ m _ bare char live rest =>
      have hdepth := depthAt_succ_mark bare char
      have hrest := ih rest (unescaped_succ_mark char)
      rw [hrest, hdepth, Mark.depthAfter_eq, List.map_cons, opened_mark, Int.add_assoc]
    | value _ _ _ markless _ rest =>
      have hrest := ih rest markless.settled
      rw [hrest, markless.depth, List.map_cons, opened_value]

/-- A separator is a token only where the tokens before it leave no bracket open. -/
theorem Lexing.opened_of_separator {t : List Char} {front back : List Token} {stop : Nat}
    (h : (ofFilter t).tokens = front ++ ⟨.mark .separator, stop⟩ :: back) :
    opened (front.map Token.lexeme) ≤ 0 := by
  obtain ⟨u, _, tiles, ⟨later, rfl⟩⟩ := exists_prefix_tiles t
  rw [h, List.append_assoc, List.cons_append] at tiles
  obtain ⟨-, -, -, live⟩ := tiles.mark_at
  have hdepth : depthAt u stop = depthAt u 0 + opened (front.map Token.lexeme) :=
    tiles.depthAt_nextStart (unescaped_zero u)
  have hstop := live rfl
  rw [depthAt_zero] at hdepth
  omega

end PathFilter
