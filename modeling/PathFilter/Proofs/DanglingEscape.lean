import PathFilter.Proofs.Acceptance
import PathFilter.Proofs.TokenErrors
import PathFilter.Proofs.Unescaped
import Mathlib.Data.List.Induction

namespace PathFilter

/-- The tokens up to a value at their end, which may go on in what follows. -/
def withoutLastValue (tokens : List Token) : List Token :=
  match tokens.getLast? with
  | some ⟨.value _, _⟩ => tokens.dropLast
  | _ => tokens

theorem withoutLastValue_sublist (tokens : List Token) :
    (withoutLastValue tokens).Sublist tokens := by
  unfold withoutLastValue
  split
  next => exact List.dropLast_sublist tokens
  next => exact List.Sublist.refl tokens

theorem withoutLastValue_literal (literal : Literal) : withoutLastValue literal.tokens = [] := by
  unfold Literal.tokens
  split <;> rfl

/-- A mark is complete as soon as it is read. -/
theorem withoutLastValue_append_mark (front : List Token) (m : Mark) (pos : Nat)
    (tokens : List Token) :
    withoutLastValue (front ++ ⟨.mark m, pos⟩ :: tokens) =
      front ++ ⟨.mark m, pos⟩ :: withoutLastValue tokens := by
  cases tokens with
  | nil => simp [withoutLastValue]
  | cons token tokens =>
    have hlast : (front ++ ⟨.mark m, pos⟩ :: token :: tokens).getLast? =
        (token :: tokens).getLast? := by
      rw [List.getLast?_append_of_ne_nil _ (List.cons_ne_nil _ _), List.getLast?_cons_cons]
    unfold withoutLastValue
    rw [hlast]
    split
    next => simp
    next => rfl

namespace Lexing

section

variable (c : Char) (t : List Char) (pos : Nat) (depth : Int) (literal : Literal)

theorem dangling_scan_singleton :
    (scan [c] pos depth literal).dangling = if c = '\\' then some pos else none := by
  by_cases hescape : c = '\\'
  · subst hescape
    rfl
  · rw [scan_of_ne_escape hescape, if_neg hescape]
    split
    · rfl
    · split
      · rfl
      · split <;> rfl

/-- A character at the end dangles if it is a backslash and the text before it is whole. -/
theorem dangling_scan_snoc :
    (scan (t ++ [c]) pos depth literal).dangling =
      if c = '\\' ∧ (scan t pos depth literal).dangling = none then some (pos + t.length)
      else none := by
  induction t, pos, depth, literal using scan_induction with
  | nil pos depth literal =>
    rw [List.nil_append, dangling_scan_singleton]
    simp [scan]
  | dangling pos depth literal =>
    rw [List.singleton_append, scan_escaped]
    simp [scan]
  | piece head u pos literal ih =>
    rw [List.append_assoc, scan_piece head, scan_piece head, ih, List.length_append, Nat.add_assoc]
  | mark live u pos literal ih =>
    rw [List.cons_append, scan_mark live, scan_mark live, dangling_prepend, dangling_prepend, ih,
      List.length_cons, Nat.add_assoc, Nat.add_comm 1]

/-- Before a backslash that dangles, the tokens are those of the text without it, but for a value
that the backslash would have gone on with. -/
theorem tokens_scan_snoc_escape (whole : (scan t pos depth literal).dangling = none) :
    (scan (t ++ ['\\']) pos depth literal).tokens =
      withoutLastValue (scan t pos depth literal).tokens := by
  induction t, pos, depth, literal using scan_induction with
  | nil pos depth literal =>
    rw [scan, withoutLastValue_literal]
    rfl
  | dangling pos depth literal => cases whole
  | piece head u pos literal ih =>
    rw [scan_piece head] at whole
    rw [List.append_assoc, scan_piece head, scan_piece head, ih whole]
  | mark live u pos literal ih =>
    rw [scan_mark live] at whole
    rw [List.cons_append, scan_mark live, scan_mark live, prepend, prepend, ih whole,
      List.append_assoc, List.append_assoc, List.singleton_append, List.singleton_append,
      withoutLastValue_append_mark]

end

theorem dangling_ofFilter_snoc (c : Char) (t : List Char) :
    (ofFilter (t ++ [c])).dangling =
      if c = '\\' ∧ (ofFilter t).dangling = none then some t.length else none := by
  have hsnoc := dangling_scan_snoc c t 0 0 .none
  rwa [Nat.zero_add] at hsnoc

/-- Backslashes pair up from the left, so that one of them dangles at the end of a text if an odd
number stands there. -/
theorem dangling_ofFilter (t : List Char) :
    (ofFilter t).dangling =
      if trailingEscapes t % 2 = 1 then some (t.length - 1) else none := by
  induction t using List.reverseRecOn with
  | nil => rfl
  | append_singleton t c ih =>
    have hwhole : (ofFilter t).dangling = none ↔ ¬trailingEscapes t % 2 = 1 := by
      rw [ih]
      split
      next hodd => simp [hodd]
      next heven => exact iff_of_true rfl heven
    rw [dangling_ofFilter_snoc, trailingEscapes_append_singleton, List.length_append,
      List.length_singleton, Nat.add_sub_cancel]
    simp only [hwhole]
    by_cases hescape : c = '\\'
    · -- one more backslash turns an even number into an odd one
      have hparity : (trailingEscapes t + 1) % 2 = 1 ↔ ¬trailingEscapes t % 2 = 1 := by omega
      simp only [hescape, true_and, ↓reduceIte, hparity]
    · simp [hescape]

/-- A text with a backslash that dangles is a whole text and that backslash. -/
theorem exists_of_dangling {t : List Char} {pos : Nat} (h : (ofFilter t).dangling = some pos) :
    ∃ u, t = u ++ ['\\'] ∧ pos = u.length ∧ (ofFilter u).dangling = none ∧
      (ofFilter t).tokens = withoutLastValue (ofFilter u).tokens := by
  rcases List.eq_nil_or_concat' t with rfl | ⟨u, c, rfl⟩
  · cases h
  rw [dangling_ofFilter_snoc, Option.ite_none_right_eq_some] at h
  obtain ⟨⟨rfl, whole⟩, hpos⟩ := h
  exact ⟨u, rfl, (Option.some.inj hpos).symm, whole, tokens_scan_snoc_escape u 0 0 .none whole⟩

end Lexing

/-- A text with a backslash that dangles is refused: at one of the tokens before it if the parser
refuses one, and else at the backslash. -/
theorem readSegments_of_dangling_cases {t : List Char} {pos : Nat}
    (h : (Lexing.ofFilter t).dangling = some pos) :
    ∃ e, readSegments t = .error e ∧ e.fault.atEnd = false ∧
      (Parsing.start.consumeAll t (Lexing.ofFilter t).tokens = .error e ∨
        (∃ s, Parsing.start.consumeAll t (Lexing.ofFilter t).tokens = .ok s) ∧
          e = .at .danglingEscape pos) := by
  cases hread : Parsing.start.consumeAll t (Lexing.ofFilter t).tokens with
  | error e =>
    have hblames := Parsing.start.consumeAll_blames t (Lexing.ofFilter t).tokens e hread
    exact ⟨e, readSegments_of_refused hread, hblames.2, .inl rfl⟩
  | ok s =>
    exact ⟨_, readSegments_of_dangling hread h, rfl, .inr ⟨⟨s, rfl⟩, rfl⟩⟩

/-- A text cannot be cut into tokens if and only if an odd number of backslashes ends it. The last
of them is then at fault, the tokens are those of the text without it that are complete, and an
error in one of these goes before it. -/
theorem parseFilter_danglingEscape (f : String) :
    ((∃ pos, (Lexing.ofFilter f.toList).dangling = some pos) ↔
      trailingEscapes f.toList % 2 = 1) ∧
    (trailingEscapes f.toList % 2 = 1 →
      (Lexing.ofFilter f.toList).dangling = some (f.toList.length - 1) ∧
      (Lexing.ofFilter f.toList.dropLast).dangling = none ∧
      (Lexing.ofFilter f.toList).tokens =
        withoutLastValue (Lexing.ofFilter f.toList.dropLast).tokens ∧
      ∃ e, parseFilter f = .error (.malformedFilter e) ∧ e.fault.atEnd = false ∧
        (Parsing.start.consumeAll f.toList (Lexing.ofFilter f.toList).tokens = .error e ∨
          (∃ s, Parsing.start.consumeAll f.toList (Lexing.ofFilter f.toList).tokens = .ok s) ∧
            e = .at .danglingEscape (f.toList.length - 1))) := by
  have hdangling := Lexing.dangling_ofFilter f.toList
  constructor
  · rw [hdangling]
    by_cases hodd : trailingEscapes f.toList % 2 = 1
    · simp [hodd]
    · simp [hodd]
  · intro hodd
    rw [if_pos hodd] at hdangling
    obtain ⟨u, hu, -, whole, htokens⟩ := Lexing.exists_of_dangling hdangling
    obtain ⟨e, hread, hfault, hcause⟩ := readSegments_of_dangling_cases hdangling
    have hdrop : f.toList.dropLast = u := by rw [hu, List.dropLast_concat]
    rw [hdrop]
    exact ⟨hdangling, whole, htokens, e, parseFilter_of_refused hread, hfault, hcause⟩

theorem parseFilter_danglingEscape_bracket :
    let f := "A[b\\\\\\"
    ((∃ pos, (Lexing.ofFilter f.toList).dangling = some pos) ↔
      trailingEscapes f.toList % 2 = 1) ∧
    trailingEscapes f.toList % 2 = 1 ∧
    (Lexing.ofFilter f.toList).dangling = some (f.toList.length - 1) ∧
    (Lexing.ofFilter f.toList.dropLast).dangling = none ∧
    (Lexing.ofFilter f.toList).tokens =
      withoutLastValue (Lexing.ofFilter f.toList.dropLast).tokens ∧
    (Lexing.ofFilter f.toList).tokens =
      [⟨.value [.literal 'A'], 0⟩, ⟨.mark .openBracket, 1⟩] ∧
    ∃ e, parseFilter f = .error (.malformedFilter e) ∧ e.fault.atEnd = false ∧
      (Parsing.start.consumeAll f.toList (Lexing.ofFilter f.toList).tokens = .error e ∨
        (∃ s, Parsing.start.consumeAll f.toList (Lexing.ofFilter f.toList).tokens = .ok s) ∧
          e = .at .danglingEscape (f.toList.length - 1)) := by
  have odd : trailingEscapes "A[b\\\\\\".toList % 2 = 1 := by cbv
  have tokens : (Lexing.ofFilter "A[b\\\\\\".toList).tokens =
      [⟨.value [.literal 'A'], 0⟩, ⟨.mark .openBracket, 1⟩] := by cbv
  obtain ⟨hiff, hdangling⟩ := parseFilter_danglingEscape "A[b\\\\\\"
  obtain ⟨stop, whole, cut, refused⟩ := hdangling odd
  exact ⟨hiff, odd, stop, whole, cut, tokens, refused⟩

end PathFilter
