import PathFilter.Proofs.Acceptance
import PathFilter.Proofs.Tiling

namespace PathFilter

/-- What a closer closes. -/
def Mark.opener? : Mark → Option Mark
  | .closeGroup => some .openGroup
  | .closeBracket => some .openBracket
  | _ => none

namespace Lexeme

def isOpener : Lexeme → Bool
  | .mark .openGroup => true
  | .mark .openBracket => true
  | _ => false

def isCloser : Lexeme → Bool
  | .value _ => false
  | .mark m => m.opener?.isSome

/-- Whether an operand is complete after a lexeme. -/
def endsOperand : Lexeme → Bool
  | .value _ => true
  | .mark m => m.opener?.isSome

end Lexeme

/-- A closer for which nothing is open any more, after an operand and what the parser accepts. -/
structure StrayCloser (t : List Char) (front : List Token) (closer opener : Mark) (pos : Nat) :
    Prop where
  next : ∃ back, (Lexing.ofFilter t).tokens = front ++ ⟨.mark closer, pos⟩ :: back
  closes : closer.opener? = some opener
  read : ∃ s, Parsing.start.consumeAll t front = .ok s
  balanced : front.countP (·.lexeme.isOpener) = front.countP (·.lexeme.isCloser)
  complete : ∃ token, front.getLast? = some token ∧ token.lexeme.endsOperand = true

/-- The error of a stray closer, by the separators on the stack. -/
def strayError (closer opener : Mark) (pos : Nat) : List Entry → SyntaxError
  | [] => .at (.unopened closer opener) pos
  | entry :: _ => .at .enclosedSeparator entry.pos

namespace Reading

variable {r r' : Reading} {y : Lexeme} {l : List Lexeme}

theorem Steps.length_openings (h : r.Steps y r') :
    r'.openings.length + (if y.isCloser then 1 else 0) =
      r.openings.length + if y.isOpener then 1 else 0 := by
  cases h <;> rfl

theorem Steps.operand?_isSome (h : r.Steps y r') : r'.last.operand?.isSome = y.endsOperand := by
  cases h <;> rfl

theorem length_openings_of_run (h : r.run l = some r') :
    r'.openings.length + l.countP Lexeme.isCloser =
      r.openings.length + l.countP Lexeme.isOpener := by
  refine run_induction (P := fun l after => after.openings.length + l.countP Lexeme.isCloser =
    r.openings.length + l.countP Lexeme.isOpener) rfl (fun l y before after hbefore hsteps => ?_) h
  have hlength := hsteps.length_openings
  rw [List.countP_append, List.countP_append, List.countP_singleton, List.countP_singleton]
  omega

theorem openings_of_balanced {tokens : List Token}
    (h : start.run (tokens.map Token.lexeme) = some r)
    (balanced : tokens.countP (·.lexeme.isOpener) = tokens.countP (·.lexeme.isCloser)) :
    r.openings = [] := by
  have hlength := length_openings_of_run h
  rw [List.countP_map, List.countP_map] at hlength
  have hstart : start.openings.length = 0 := rfl
  simp only [Function.comp_def] at hlength
  exact List.eq_nil_of_length_eq_zero (by omega)

theorem operand?_of_run (h : r.run (l ++ [y]) = some r') (hy : y.endsOperand = true) :
    ∃ e, r'.last.operand? = some e := by
  rw [run_append] at h
  obtain ⟨before, -, h⟩ := Option.bind_eq_some_iff.mp h
  obtain ⟨after, hstep, h⟩ := Option.bind_eq_some_iff.mp h
  obtain rfl := Option.some.inj h
  exact Option.isSome_iff_exists.mp ((steps_of_step hstep).operand?_isSome.trans hy)

end Reading

/-- Outside brackets nothing that waits for an operand can fail. -/
theorem TightText.exists_applied {l : List Lexeme} {ts : List Tight}
    (h : TightText .segment l ts) (e : Expr) :
    ∃ tree, ts.foldlM (fun e t => t.apply e) e = some tree := by
  generalize hplace : Place.segment = place at h
  induction h generalizing e with
  | nil => exact ⟨e, rfl⟩
  | not _ ih => exact ih (.apply .not [e]) hplace
  | equals => cases hplace

theorem FrameText.exists_disjunction {f : Frame} {l : List Lexeme} (h : FrameText .segment f l)
    (e : Expr) : ∃ tree, f.disjunction e = some tree := by
  obtain ⟨leading, ended, disjuncts, conjuncts, waiting⟩ := h
  obtain ⟨tree, htree⟩ := waiting.exists_applied e
  exact ⟨_, by rw [Frame.disjunction, Frame.conjunction, Frame.unary, htree]; rfl⟩

namespace Parsing

variable {s : Parsing} {f : Frame} {x : LastLexeme} {e tree : Expr}

theorem Holds.length_separators (h : s.Holds ⟨f, [], x⟩) :
    (s.operators.filter Entry.isSeparator).length = f.separators := by
  have htights : (f.tights.map Tight.kind).count .separator = 0 :=
    List.count_eq_zero.mpr (Tight.separator_notMem_kinds f.tights)
  have hcount : (s.operators.map Entry.kind).count .separator = f.separators := by
    rw [h.operators]
    simp [Frame.kinds, htights, List.count_replicate]
  rw [← hcount, ← List.countP_eq_length_filter, List.count, List.countP_map]
  rfl

/-- With nothing open a closer gets down to the last separator, or else through the whole stack. -/
theorem close_of_balanced (h : s.Holds ⟨f, [], x⟩) (hx : x.operand? = some e)
    (closed : f.disjunction e = some tree) (opener : EntryKind) (closer openMark : Mark)
    (pos : Nat) :
    s.close opener closer openMark pos =
      .error (strayError closer openMark pos (s.operators.filter Entry.isSeparator)) := by
  have hlength := h.length_separators
  by_cases hseparators : f.separators = 0
  · have hnone : s.operators.filter Entry.isSeparator = [] :=
      List.eq_nil_of_length_eq_zero (hlength.trans hseparators)
    have henclosed : f.enclosed e = some tree := by rw [Frame.enclosed, if_pos hseparators, closed]
    rw [hnone, close_of_unopened h hx henclosed, strayError]
  · obtain ⟨entry, entries, hfilter, hunwind⟩ := unwind_of_separators h hx closed hseparators
    simp only [close, hunwind, hfilter, strayError, bind, Except.bind]

theorem onLexeme_of_balanced {closer openMark : Mark} (hcloser : closer.opener? = some openMark)
    (h : s.Holds ⟨f, [], x⟩) (hx : x.operand? = some e) (closed : f.disjunction e = some tree)
    (filter : List Char) (pos : Nat) :
    s.onLexeme filter pos (.mark closer) =
      .error (strayError closer openMark pos (s.operators.filter Entry.isSeparator)) := by
  have hallowed := (h.allowed hx).1
  cases closer with
  | closeGroup =>
    obtain rfl := Option.some.inj hcloser
    rw [onLexeme, onCloseGroup, if_pos hallowed, close_of_balanced h hx closed]
    rfl
  | closeBracket =>
    obtain rfl := Option.some.inj hcloser
    rw [onLexeme, onCloseBracket, if_pos hallowed, close_of_balanced h hx closed]
    rfl
  | _ => cases hcloser

end Parsing

namespace StrayCloser

variable {t : List Char} {front : List Token} {closer opener : Mark} {pos : Nat}

/-- The error of a stray closer: at the last separator before it, or at itself if there is none. -/
theorem readSegments_eq (h : StrayCloser t front closer opener pos) :
    readSegments t =
      .error (strayError closer opener pos (separatorEntries front).reverse) := by
  obtain ⟨⟨back, htokens⟩, hcloser, ⟨s, hs⟩, balanced, token, hlast, hends⟩ := h
  obtain ⟨r, hrun, hreads⟩ := Parsing.exists_reading_of_consumeAll Parsing.reads_start hs
  obtain ⟨f, os, x⟩ := r
  obtain rfl : os = [] := Reading.openings_of_balanced hrun balanced
  obtain ⟨e, hx⟩ : ∃ e, x.operand? = some e := by
    obtain ⟨init, rfl⟩ := List.getLast?_eq_some_iff.mp hlast
    rw [List.map_append] at hrun
    exact Reading.operand?_of_run hrun hends
  obtain ⟨_, _, _, -, outer, frame, -⟩ := (ReadingText.of_run hrun).withOperand hx
  obtain ⟨tree, closed⟩ := frame.exists_disjunction e
  have herror := Parsing.onLexeme_of_balanced hcloser hreads.toHolds hx closed t pos
  rw [Parsing.separators_of_start hs] at herror
  refine readSegments_of_refused ?_
  rw [htokens, Parsing.consumeAll_append, hs]
  simp only [Except.bind, Parsing.consumeAll, Parsing.consume, bind, herror]

theorem lt_of_mem (h : StrayCloser t front closer opener pos) {token : Token}
    (htoken : token ∈ front) : token.pos < pos := by
  obtain ⟨back, htokens⟩ := h.next
  have hincreasing := Lexing.increasing t
  rw [htokens] at hincreasing
  exact (List.pairwise_append.mp hincreasing).2.2 token htoken _ List.mem_cons_self

end StrayCloser

/-- A stray closer is reported where it stands if no separator precedes it. Otherwise the last of
those is reported. -/
theorem parseFilter_strayCloser {f : String} {front : List Token} {closer opener : Mark} {pos : Nat}
    (h : StrayCloser f.toList front closer opener pos) :
    ∃ e, parseFilter f = .error (.malformedFilter e) ∧
      ((∀ token ∈ front, token.lexeme ≠ .mark .separator) →
        e = .at (.unopened closer opener) pos) ∧
      ∀ before last after, front = before ++ ⟨.mark .separator, last⟩ :: after →
        (∀ token ∈ after, token.lexeme ≠ .mark .separator) →
        e = .at .enclosedSeparator last ∧ last < pos := by
  refine ⟨_, parseFilter_of_refused h.readSegments_eq, ?_, ?_⟩
  · intro hnone
    rw [separatorEntries_eq_nil hnone, List.reverse_nil, strayError]
  · intro before last after hfront hafter
    have hmem : ⟨.mark .separator, last⟩ ∈ front := by simp [hfront]
    have hlast : last < pos := h.lt_of_mem hmem
    rw [hfront, separatorEntries_append, separatorEntries_separator,
      separatorEntries_eq_nil hafter, List.reverse_append]
    exact ⟨rfl, hlast⟩

theorem parseFilter_strayCloser_bracket :
    let front : List Token :=
      [⟨.mark .separator, 0⟩, ⟨.value [.literal 'A'], 1⟩, ⟨.mark .separator, 2⟩, ⟨.mark .not, 3⟩,
        ⟨.value [.literal 'B'], 4⟩]
    (StrayCloser "A)".toList [⟨.value [.literal 'A'], 0⟩] .closeGroup .openGroup 1 ∧
      parseFilter "A)" = .error (.malformedFilter (.at (.unopened .closeGroup .openGroup) 1))) ∧
    (StrayCloser "/A/!B]".toList front .closeBracket .openBracket 5 ∧
      parseFilter "/A/!B]" = .error (.malformedFilter (.at .enclosedSeparator 2))) := by
  intro front
  have hgroup : StrayCloser "A)".toList [⟨.value [.literal 'A'], 0⟩] .closeGroup .openGroup 1 := by
    have htext : "A)".toList = ['A', ')'] := by decide
    rw [htext]
    exact ⟨⟨[], by decide⟩, rfl, ⟨_, rfl⟩, rfl, ⟨_, rfl, rfl⟩⟩
  have hbracket : StrayCloser "/A/!B]".toList front .closeBracket .openBracket 5 := by
    have htext : "/A/!B]".toList = ['/', 'A', '/', '!', 'B', ']'] := by decide
    rw [htext]
    exact ⟨⟨[], by decide⟩, rfl, ⟨_, rfl⟩, rfl, ⟨_, rfl, rfl⟩⟩
  obtain ⟨e, he, hfirst, -⟩ := parseFilter_strayCloser hgroup
  obtain ⟨e', he', -, hlast⟩ := parseFilter_strayCloser hbracket
  obtain ⟨rfl, -⟩ := hlast [⟨.mark .separator, 0⟩, ⟨.value [.literal 'A'], 1⟩] 2 _ rfl (by decide)
  obtain rfl := hfirst (by decide)
  exact ⟨⟨hgroup, he⟩, hbracket, he'⟩

/-- Behind a separator a stray closer is not reported where it stands. -/
theorem strayCloser_reportedElsewhere :
    StrayCloser "A/B)".toList
        [⟨.value [.literal 'A'], 0⟩, ⟨.mark .separator, 1⟩, ⟨.value [.literal 'B'], 2⟩]
        .closeGroup .openGroup 3 ∧
      ¬∃ e, parseFilter "A/B)" = .error (.malformedFilter e) ∧ e.pos = some 3 := by
  have htext : "A/B)".toList = ['A', '/', 'B', ')'] := by decide
  refine ⟨htext ▸ ⟨⟨[], by decide⟩, rfl, ⟨_, rfl⟩, rfl, ⟨_, rfl, rfl⟩⟩, ?_⟩
  rintro ⟨e, he, hpos⟩
  have herror : parseFilter "A/B)" = .error (.malformedFilter (.at .enclosedSeparator 1)) := by cbv
  rw [herror] at he
  obtain rfl := Failure.malformedFilter.inj (Except.error.inj he)
  contradiction

end PathFilter
