import PathFilter.Proofs.Acceptance

namespace PathFilter

namespace Lexing

theorem mark_notMem_tokens (literal : Literal) (m : Mark) (pos : Nat) :
    ⟨.mark m, pos⟩ ∉ literal.tokens := by
  unfold Literal.tokens
  split <;> simp

/-- A mark that stands behind a literal stands behind all of it. -/
theorem exists_later_of_mark {literal : Literal} {front back rest : List Token} {m : Mark}
    {pos : Nat} (h : literal.tokens ++ rest = front ++ ⟨.mark m, pos⟩ :: back) :
    ∃ later, front = literal.tokens ++ later ∧ rest = later ++ ⟨.mark m, pos⟩ :: back := by
  rcases List.append_eq_append_iff.mp h with later | ⟨later, hliteral, hlater⟩
  · exact later
  · cases later with
    | nil => exact ⟨[], by simpa using hliteral.symm, by simpa using hlater.symm⟩
    | cons token later =>
      obtain ⟨rfl, -⟩ := List.cons.inj hlater
      exact absurd (by simp [hliteral]) (mark_notMem_tokens literal m pos)

/-- What follows a mark has no part in the tokens up to it. -/
theorem exists_front_of_mark (t : List Char) (pos : Nat) (depth : Int) (literal : Literal)
    {front back : List Token} {m : Mark} {stop : Nat}
    (h : (scan t pos depth literal).tokens = front ++ ⟨.mark m, stop⟩ :: back) :
    ∃ w u inner, t = w ++ u ∧ pos + w.length = stop + 1 ∧
      ∀ v, scan (w ++ v) pos depth literal =
        (scan v (stop + 1) inner .none).prepend (front ++ [⟨.mark m, stop⟩]) := by
  induction t, pos, depth, literal using scan_induction generalizing front with
  | nil pos depth literal =>
    rw [scan, ← List.append_nil literal.tokens] at h
    obtain ⟨later, -, hlater⟩ := exists_later_of_mark h
    simp at hlater
  | dangling pos depth literal => simp [scan] at h
  | @piece depth x t head u pos literal ih =>
    rw [scan_piece head] at h
    obtain ⟨w, rest, inner, rfl, hlength, hscan⟩ := ih h
    refine ⟨t ++ w, rest, inner, (List.append_assoc _ _ _).symm, ?_, fun v => ?_⟩
    · rw [List.length_append, ← Nat.add_assoc, hlength]
    · rw [List.append_assoc, scan_piece head, hscan]
  | @mark depth n live u pos literal ih =>
    rw [scan_mark live, prepend, List.append_assoc, List.singleton_append] at h
    obtain ⟨later, rfl, hlater⟩ := exists_later_of_mark h
    cases later with
    | nil =>
      obtain ⟨hmark, -⟩ := List.cons.inj hlater
      obtain ⟨hlexeme, rfl⟩ := Token.mk.inj hmark
      obtain rfl := Lexeme.mark.inj hlexeme
      refine ⟨[n.char], u, n.depthAfter depth, rfl, rfl, fun v => ?_⟩
      rw [List.singleton_append, scan_mark live, List.append_nil]
    | cons token later =>
      obtain ⟨rfl, hrest⟩ := List.cons.inj hlater
      obtain ⟨w, rest, inner, rfl, hlength, hscan⟩ := ih hrest
      refine ⟨n.char :: w, rest, inner, rfl, ?_, fun v => ?_⟩
      · rw [List.length_cons]
        omega
      · rw [List.cons_append, scan_mark live, hscan]
        simp [prepend]

/-- Texts that agree up to a mark have the same tokens up to it. -/
theorem tokens_of_agree {t u : List Char} {front back : List Token} {m : Mark} {pos : Nat}
    (h : (ofFilter t).tokens = front ++ ⟨.mark m, pos⟩ :: back)
    (agree : u.take (pos + 1) = t.take (pos + 1)) :
    ∃ later, (ofFilter u).tokens = front ++ ⟨.mark m, pos⟩ :: later := by
  obtain ⟨w, rest, inner, rfl, hlength, hscan⟩ := exists_front_of_mark t 0 0 .none h
  rw [Nat.zero_add] at hlength
  obtain ⟨v, rfl⟩ : ∃ v, u = w ++ v := by
    have hu := List.take_append_drop w.length u
    rw [← hlength, List.take_left] at agree
    rw [agree] at hu
    exact ⟨_, hu.symm⟩
  exact ⟨(scan v (pos + 1) inner .none).tokens, by simp [ofFilter, hscan, prepend]⟩

end Lexing

namespace Parsing

variable {s s' : Parsing} {t : List Char}

/-- The text of a filter matters to an error at a value only. -/
theorem consume_mark (t u : List Char) (s : Parsing) (m : Mark) (pos : Nat) :
    s.consume t ⟨.mark m, pos⟩ = s.consume u ⟨.mark m, pos⟩ := by
  cases m <;> rfl

theorem consume_of_ok {token : Token} (h : s.consume t token = .ok s') (u : List Char) :
    s.consume u token = .ok s' := by
  obtain ⟨y, pos⟩ := token
  cases y with
  | mark m => exact (consume_mark u t s m pos).trans h
  | value p =>
    obtain ⟨read, hread, h⟩ := bind_eq_ok_iff.mp h
    obtain ⟨hallowed, hread⟩ := ite_error_eq_ok_iff.mp hread
    exact bind_eq_ok_iff.mpr ⟨read, ite_error_eq_ok_iff.mpr ⟨hallowed, hread⟩, h⟩

theorem consumeAll_of_ok {tokens : List Token} (h : s.consumeAll t tokens = .ok s')
    (u : List Char) : s.consumeAll u tokens = .ok s' := by
  induction tokens generalizing s with
  | nil => exact h
  | cons token tokens ih =>
    obtain ⟨next, hnext, h⟩ := bind_eq_ok_iff.mp h
    exact bind_eq_ok_iff.mpr ⟨next, consume_of_ok hnext u, ih h⟩

end Parsing

/-- A mark that is refused when a text is read, with the tokens before it and the error. -/
structure RefusedMark (t : List Char) (front : List Token) (m : Mark) (pos : Nat)
    (e : SyntaxError) : Prop where
  next : ∃ back, (Lexing.ofFilter t).tokens = front ++ ⟨.mark m, pos⟩ :: back
  refused : ∃ s, Parsing.start.consumeAll t front = .ok s ∧ s.consume t ⟨.mark m, pos⟩ = .error e

namespace RefusedMark

variable {t u : List Char} {front : List Token} {m : Mark} {pos : Nat} {e : SyntaxError}

theorem readSegments_eq (h : RefusedMark t front m pos e) : readSegments t = .error e := by
  obtain ⟨⟨back, htokens⟩, s, hread, hrefused⟩ := h
  refine readSegments_of_refused ?_
  rw [htokens, Parsing.consumeAll_append, hread]
  simp only [Except.bind, Parsing.consumeAll, hrefused, bind]

theorem of_agree (h : RefusedMark t front m pos e) (agree : u.take (pos + 1) = t.take (pos + 1)) :
    RefusedMark u front m pos e := by
  obtain ⟨⟨back, htokens⟩, s, hread, hrefused⟩ := h
  exact ⟨Lexing.tokens_of_agree htokens agree, s, Parsing.consumeAll_of_ok hread u,
    (Parsing.consume_mark u t s m pos).trans hrefused⟩

end RefusedMark

/-- No text that begins as one does up to a refused mark is a filter: its error is the same,
whatever follows the mark. -/
theorem parseFilter_refusedMark {f g : String} {front : List Token} {m : Mark} {pos : Nat}
    {e : SyntaxError} (h : RefusedMark f.toList front m pos e)
    (agree : g.toList.take (pos + 1) = f.toList.take (pos + 1)) :
    parseFilter f = .error (.malformedFilter e) ∧ parseFilter g = .error (.malformedFilter e) :=
  ⟨parseFilter_of_refused h.readSegments_eq,
    parseFilter_of_refused (h.of_agree agree).readSegments_eq⟩

theorem parseFilter_refusedMark_dangling :
    let front : List Token :=
      [⟨.value [.literal 'A', .literal '/'], 0⟩, ⟨.mark .and, 3⟩, ⟨.mark .openGroup, 4⟩,
        ⟨.value [.literal 'B'], 5⟩]
    let e : SyntaxError := .at .separatorInGroup 6
    RefusedMark "A\\/&(B/C".toList front .separator 6 e ∧
      "A\\/&(B/])\\".toList.take 7 = "A\\/&(B/C".toList.take 7 ∧
      parseFilter "A\\/&(B/C" = .error (.malformedFilter e) ∧
      parseFilter "A\\/&(B/])\\" = .error (.malformedFilter e) := by
  intro front e
  have tokens : (Lexing.ofFilter "A\\/&(B/C".toList).tokens =
      front ++ ⟨.mark .separator, 6⟩ :: [⟨.value [.literal 'C'], 7⟩] := by cbv
  have refused : RefusedMark "A\\/&(B/C".toList front .separator 6 e :=
    ⟨⟨_, tokens⟩, _, rfl, rfl⟩
  have agree : "A\\/&(B/])\\".toList.take 7 = "A\\/&(B/C".toList.take 7 := by cbv
  exact ⟨refused, agree, parseFilter_refusedMark refused agree⟩

end PathFilter
