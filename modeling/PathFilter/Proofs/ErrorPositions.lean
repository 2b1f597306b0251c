import PathFilter.Proofs.DanglingEscape
import PathFilter.Proofs.Tiling

namespace PathFilter

namespace Reading

variable {r : Reading} {l : List Lexeme}

theorem eq_nil_of_start (h : start.run l = some r) (hlast : r.last = .start) : l = [] := by
  rcases List.eq_nil_or_concat' l with rfl | ⟨k, y, rfl⟩
  · rfl
  rw [run_append] at h
  obtain ⟨before, -, h⟩ := Option.bind_eq_some_iff.mp h
  obtain ⟨after, hstep, h⟩ := Option.bind_eq_some_iff.mp h
  obtain rfl := Option.some.inj h
  exact absurd hlast (steps_of_step hstep).last_ne_start

/-- A text of which no segment is complete, and no operand or operator is read, is empty or a
separator. -/
theorem eq_separator_of_run (h : start.run l = some r) (hoperand : r.last.operand? = none)
    (hmark : r.last ≠ .mark) (hsegments : r.frame.segments = []) :
    l = [] ∨ l = [.mark .separator] := by
  rcases List.eq_nil_or_concat' l with rfl | ⟨k, y, rfl⟩
  · exact .inl rfl
  rw [run_append] at h
  obtain ⟨before, hrun, h⟩ := Option.bind_eq_some_iff.mp h
  obtain ⟨after, hstep, h⟩ := Option.bind_eq_some_iff.mp h
  obtain rfl := Option.some.inj h
  cases steps_of_step hstep with
  | leadingSeparator =>
    obtain rfl := eq_nil_of_start hrun rfl
    exact .inr rfl
  | separator => cases hsegments
  | value => cases hoperand
  | closeGroup => cases hoperand
  | closeBracket => cases hoperand
  | _ => exact absurd rfl hmark

end Reading

theorem Spells.eq_nil {depth : Int} {t : List Char} (h : Spells depth [] t) : t = [] := by
  cases h
  rfl

theorem Spells.eq_separator {depth : Int} {t : List Char}
    (h : Spells depth [.mark .separator] t) : t = ['/'] := by
  cases h with
  | mark _ rest => rw [rest.eq_nil, Mark.char]

theorem Tiles.pos_lt_length {t : List Char} {pos : Nat} {tokens : List Token}
    (h : Tiles t pos tokens) : ∀ token ∈ tokens, token.pos < t.length := by
  induction h with
  | nil => exact nofun
  | mark _ char _ _ ih =>
    exact List.forall_mem_cons.mpr ⟨(List.getElem?_eq_some_iff.mp char).1, ih⟩
  | value nonempty bounded _ _ _ _ ih =>
    exact List.forall_mem_cons.mpr ⟨Nat.lt_of_lt_of_le nonempty bounded, ih⟩

/-- Tokens begin within the text, also where a backslash ends it. -/
theorem Lexing.pos_lt_length {t : List Char} {token : Token} (h : token ∈ (ofFilter t).tokens) :
    token.pos < t.length := by
  cases hdangling : (ofFilter t).dangling with
  | none => exact (tiles_of_whole hdangling).pos_lt_length token h
  | some pos =>
    obtain ⟨u, rfl, -, whole, htokens⟩ := exists_of_dangling hdangling
    rw [htokens] at h
    have hmem := (withoutLastValue_sublist _).subset h
    have hlt := (tiles_of_whole whole).pos_lt_length token hmem
    rw [List.length_append, List.length_singleton]
    omega

namespace Parsing

variable {s s' : Parsing} {filter : List Char} {pos : Nat}
variable {entry : Entry} {entries entries' : List Entry} {operands operands' : List Expr}

theorem applyChain_ne_nil {op : Operator}
    (h : applyChain op entry entries operands = .ok (entries', operands')) : operands' ≠ [] := by
  obtain ⟨_, -, h⟩ := bind_eq_ok_iff.mp h
  obtain ⟨_, -, h⟩ := bind_eq_ok_iff.mp h
  obtain ⟨_, -, h⟩ := bind_eq_ok_iff.mp h
  obtain ⟨-, rfl⟩ := Prod.mk.inj (Except.ok.inj h)
  exact List.cons_ne_nil _ _

/-- An entry that is applied leaves its tree. -/
theorem applyEntry_ne_nil (h : applyEntry entry entries operands = .ok (entries', operands')) :
    operands' ≠ [] := by
  unfold applyEntry at h
  split at h
  next => exact applyChain_ne_nil h
  next => exact applyChain_ne_nil h
  next =>
    obtain ⟨_, -, h⟩ := bind_eq_ok_iff.mp h
    obtain ⟨-, rfl⟩ := Prod.mk.inj (Except.ok.inj h)
    exact List.cons_ne_nil _ _
  next =>
    obtain ⟨_, -, h⟩ := bind_eq_ok_iff.mp h
    obtain ⟨_, -, h⟩ := bind_eq_ok_iff.mp h
    dsimp only at h
    split at h
    next =>
      obtain ⟨-, rfl⟩ := Prod.mk.inj (Except.ok.inj h)
      exact List.cons_ne_nil _ _
    next => cases h
  next => cases h

theorem drain_eq_nil {budget : Nat} (h : drain budget entries operands = .ok []) :
    operands = [] := by
  induction budget generalizing entries operands with
  | zero => exact Except.ok.inj h
  | succ budget ih =>
    cases entries with
    | nil => exact Except.ok.inj h
    | cons entry entries =>
      rw [drain] at h
      split at h
      next => exact ih h
      next => cases h
      next => cases h
      next =>
        obtain ⟨⟨rest, left⟩, happlied, h⟩ := bind_eq_ok_iff.mp h
        exact absurd (ih h) (applyEntry_ne_nil happlied)

theorem drain_placed {budget : Nat} {e : SyntaxError}
    (h : drain budget entries operands = .error e) : e.pos.isSome = true := by
  induction budget generalizing entries operands with
  | zero => cases h
  | succ budget ih =>
    cases entries with
    | nil => cases h
    | cons entry entries =>
      rw [drain] at h
      split at h
      next => exact ih h
      next =>
        obtain rfl := Except.error.inj h
        rfl
      next =>
        obtain rfl := Except.error.inj h
        rfl
      next =>
        cases happlied : applyEntry entry entries operands with
        | error error =>
          rw [happlied] at h
          obtain rfl := Except.error.inj h
          exact (applyEntry_blames entry entries operands _ happlied).1
        | ok left =>
          rw [happlied] at h
          exact ih h

/-- Only a filter without a single operand is refused without a place. -/
theorem operands_of_finish {e : SyntaxError} (h : s.finish = .error e) (hpos : e.pos = none) :
    s.waiting = none ∧ s.operands = [] := by
  unfold finish at h
  split at h
  next =>
    obtain rfl := Except.error.inj h
    cases hpos
  next hwaiting =>
    refine ⟨hwaiting, ?_⟩
    cases hdrain : drain s.operators.length s.operators s.operands with
    | error error =>
      rw [hdrain] at h
      obtain rfl := Except.error.inj h
      have hplaced := drain_placed hdrain
      rw [hpos] at hplaced
      cases hplaced
    | ok operands =>
      rw [hdrain] at h
      cases operands with
      | nil => exact drain_eq_nil hdrain
      | cons e operands => cases h

/-- Whatever an error may point at was put there by a token. -/
structure Traced (s : Parsing) (tokens : List Token) : Prop where
  operators : ∀ entry ∈ s.operators, ∃ token ∈ tokens, token.pos = entry.pos
  waiting : ∀ mark pos, s.waiting = some (mark, pos) → ∃ token ∈ tokens, token.pos = pos

theorem Traced.advances {front : List Token} {token : Token} (h : s.Traced front)
    (hs : s.Advances token.entry? token.pos s') : s'.Traced (front ++ [token]) := by
  obtain ⟨⟨rest, hoperators, hdrops⟩, hwaiting⟩ := hs
  constructor
  · intro entry hentry
    rw [hoperators] at hentry
    rcases List.mem_append.mp hentry with hown | hrest
    · obtain ⟨kind, -, rfl⟩ := Option.map_eq_some_iff.mp (Option.mem_toList.mp hown)
      exact ⟨token, by simp, rfl⟩
    · obtain ⟨earlier, hearlier, hpos⟩ := h.operators entry (hdrops.subset hrest)
      exact ⟨earlier, List.mem_append_left _ hearlier, hpos⟩
  · intro mark pos hmark
    rcases hwaiting mark pos hmark with rfl | hbefore
    · exact ⟨token, by simp, rfl⟩
    · obtain ⟨earlier, hearlier, hpos⟩ := h.waiting mark pos hbefore
      exact ⟨earlier, List.mem_append_left _ hearlier, hpos⟩

theorem traced_of_start {tokens : List Token} (h : start.consumeAll filter tokens = .ok s) :
    s.Traced tokens := by
  have hstart : start.Traced [] := ⟨by simp [start], by simp [start]⟩
  exact consumeAll_induction (P := fun front s => s.Traced front) hstart
    (fun _ _ _ _ htraced hadvances => htraced.advances hadvances) h

end Parsing

section

variable {t : List Char} {e : SyntaxError}

/-- An error in reading points at the start of a token, or at a backslash that dangles. -/
theorem position_of_readSegments (h : readSegments t = .error e) {pos : Nat}
    (hpos : e.pos = some pos) :
    (∃ token ∈ (Lexing.ofFilter t).tokens, token.pos = pos) ∨
      (Lexing.ofFilter t).dangling = some pos := by
  have hreads := readsText t
  rw [h] at hreads
  cases hreads with
  | @refused front back token s _ tokens read hrefuses =>
    rw [tokens]
    rcases hrefuses.position with hat | ⟨entry, hentry, hat⟩
    · exact .inl ⟨token, by simp, Option.some.inj (hat.symm.trans hpos)⟩
    · obtain ⟨earlier, hearlier, hentry⟩ :=
        (Parsing.traced_of_start read).operators entry hentry
      exact .inl ⟨earlier, List.mem_append_left _ hearlier,
        hentry.trans (Option.some.inj (hat.symm.trans hpos))⟩
  | dangling _ hdangling => exact .inr (hdangling.trans hpos)
  | @finished s r _ read _ _ ends =>
    have traced := Parsing.traced_of_start read
    generalize r.finish = result at ends
    cases ends with
    | unfinished hunfinished =>
      cases hunfinished with
      | @entry entry hentry fault _ =>
        obtain ⟨token, htoken, hentry⟩ := traced.operators entry hentry
        exact .inl ⟨token, htoken, hentry.trans (Option.some.inj hpos)⟩
      | @waiting mark at₀ hwaiting =>
        obtain ⟨token, htoken, hat⟩ := traced.waiting mark at₀ hwaiting
        exact .inl ⟨token, htoken, hat.trans (Option.some.inj hpos)⟩
      | empty => cases hpos

/-- Only a text that holds no token to point at has an error without a place. -/
theorem eq_of_no_position (h : readSegments t = .error e) (hpos : e.pos = none) :
    t = [] ∨ t = ['/'] := by
  cases hread : Parsing.start.consumeAll t (Lexing.ofFilter t).tokens with
  | error error =>
    rw [readSegments_of_refused hread] at h
    obtain rfl := Except.error.inj h
    have hplaced := (Parsing.start.consumeAll_blames t _ _ hread).1
    rw [hpos] at hplaced
    cases hplaced
  | ok s =>
    cases hdangling : (Lexing.ofFilter t).dangling with
    | some pos =>
      rw [readSegments_of_dangling hread hdangling] at h
      obtain rfl := Except.error.inj h
      cases hpos
    | none =>
      rw [readSegments_of_complete hread hdangling] at h
      obtain ⟨hwaiting, hoperands⟩ := Parsing.operands_of_finish h hpos
      obtain ⟨r, hrun, hreads⟩ := Parsing.exists_reading_of_consumeAll Parsing.reads_start hread
      -- nothing lies on the stack, so no operand is complete and no segment
      have hempty := hreads.operands
      rw [hoperands] at hempty
      obtain ⟨hoperand, hrest⟩ := List.append_eq_nil_iff.mp hempty.symm
      obtain ⟨hframe, -⟩ := List.append_eq_nil_iff.mp hrest
      have hmark : r.last ≠ .mark := by
        intro hlast
        have hsome := hreads.waiting
        rw [hwaiting, hlast] at hsome
        cases hsome
      have hsegments : r.frame.segments = [] := by
        simp only [Frame.operands, List.append_eq_nil_iff] at hframe
        exact hframe.2.2.2
      have hspells := Lexing.spells_iff.mpr ⟨hdangling, rfl⟩
      rcases Reading.eq_separator_of_run hrun (Option.toList_eq_nil_iff.mp hoperand) hmark hsegments
        with hlexemes | hlexemes
      · rw [Lexing.lexemes, hlexemes] at hspells
        exact .inl hspells.eq_nil
      · rw [Lexing.lexemes, hlexemes] at hspells
        exact .inr hspells.eq_separator

end

/-- An error in a filter points at the start of one of its tokens, or at its last character if a
backslash dangles there. Only the filters that hold nothing to point at have an error without a
place. -/
theorem parseFilter_errorPosition {f : String} {e : SyntaxError}
    (h : parseFilter f = .error (.malformedFilter e)) :
    (e.pos = none ↔ f = "" ∨ f = "/") ∧
      ∀ pos, e.pos = some pos → pos < f.length ∧
        ((∃ token ∈ (Lexing.ofFilter f.toList).tokens, token.pos = pos) ∨
          trailingEscapes f.toList % 2 = 1 ∧ pos + 1 = f.length) := by
  have hread := parseFilter_eq_malformed_iff.mp h
  refine ⟨⟨fun hpos => ?_, ?_⟩, fun pos hpos => ?_⟩
  · rcases eq_of_no_position hread hpos with ht | ht
    · exact .inl (String.toList_inj.mp ht)
    · exact .inr (String.toList_inj.mp ht)
  · have hempty : readSegments "".toList = .error ⟨.emptyFilter, none⟩ := by cbv
    have hseparator : readSegments "/".toList = .error ⟨.emptyFilter, none⟩ := by cbv
    rintro (rfl | rfl)
    · rw [Except.error.inj (hread.symm.trans hempty)]
    · rw [Except.error.inj (hread.symm.trans hseparator)]
  · rw [← String.length_toList]
    rcases position_of_readSegments hread hpos with ⟨token, htoken, rfl⟩ | hdangling
    · exact ⟨Lexing.pos_lt_length htoken, .inl ⟨token, htoken, rfl⟩⟩
    · have hodd : trailingEscapes f.toList % 2 = 1 := by
        rw [Lexing.dangling_ofFilter, Option.ite_none_right_eq_some] at hdangling
        exact hdangling.1
      obtain ⟨u, hu, rfl, -, -⟩ := Lexing.exists_of_dangling hdangling
      have hlength : f.toList.length = u.length + 1 := by
        rw [hu, List.length_append, List.length_singleton]
      exact ⟨by omega, .inr ⟨hodd, hlength.symm⟩⟩

theorem parseFilter_errorPosition_bracket :
    (∃ e, parseFilter "/A/B[k=(x]" = .error (.malformedFilter e) ∧ e.pos = some 9 ∧
      (e.pos = none ↔ "/A/B[k=(x]" = "" ∨ "/A/B[k=(x]" = "/") ∧
      ∀ pos, e.pos = some pos → pos < "/A/B[k=(x]".length ∧
        ((∃ token ∈ (Lexing.ofFilter "/A/B[k=(x]".toList).tokens, token.pos = pos) ∨
          trailingEscapes "/A/B[k=(x]".toList % 2 = 1 ∧ pos + 1 = "/A/B[k=(x]".length)) ∧
    ∃ e, parseFilter "!A\\" = .error (.malformedFilter e) ∧ e.pos = some 2 ∧
      (e.pos = none ↔ "!A\\" = "" ∨ "!A\\" = "/") ∧
      ∀ pos, e.pos = some pos → pos < "!A\\".length ∧
        ((∃ token ∈ (Lexing.ofFilter "!A\\".toList).tokens, token.pos = pos) ∨
          trailingEscapes "!A\\".toList % 2 = 1 ∧ pos + 1 = "!A\\".length) := by
  have crossed : parseFilter "/A/B[k=(x]" =
      .error (.malformedFilter (.at (.crossed .closeBracket .openGroup 7) 9)) := by cbv
  have dangling : parseFilter "!A\\" = .error (.malformedFilter (.at .danglingEscape 2)) := by cbv
  exact ⟨⟨_, crossed, rfl, parseFilter_errorPosition crossed⟩,
    ⟨_, dangling, rfl, parseFilter_errorPosition dangling⟩⟩

end PathFilter
