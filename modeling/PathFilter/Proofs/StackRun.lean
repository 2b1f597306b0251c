import PathFilter.Proofs.ReadingText
import PathFilter.Proofs.StackSteps

namespace PathFilter

namespace Reading

/-- Nothing but segments has been read before a separator. -/
def Separated (r : Reading) : Prop :=
  r.last = .separator → r.frame = ⟨r.frame.leading, r.frame.segments, [], [], []⟩

/-- A lexeme leaves a separator behind only if it is one. -/
theorem step_last {r r' : Reading} {y : Lexeme} (hstart : r.last = .start → r = .start)
    (h : r.step y = some r') :
    (y = .mark .separator ↔ r'.last = .separator) ∧ r'.Separated := by
  cases steps_of_step h with
  | separator => exact ⟨iff_of_true rfl rfl, fun _ => rfl⟩
  | leadingSeparator =>
    obtain ⟨rfl, rfl, -⟩ := Reading.mk.inj (hstart rfl)
    exact ⟨iff_of_true rfl rfl, fun _ => rfl⟩
  | _ => exact ⟨iff_of_false nofun nofun, nofun⟩

end Reading

namespace Parsing

variable {s : Parsing} {r : Reading} {filter : List Char}
variable {f : Frame} {os : List Opening} {x : LastLexeme} {e tree : Expr}

/-- A parser that has come to a reading, and knows whether a separator came last. -/
structure Reads (s : Parsing) (r : Reading) : Prop extends s.Holds r where
  previous : s.previous = some (.mark .separator) ↔ r.last = .separator
  separated : r.Separated

theorem reads_start : start.Reads .start := ⟨holds_start, by simp [start, Reading.start], nofun⟩

theorem onLexeme_follows (h : s.Reads r) (filter : List Char) (pos : Nat) (y : Lexeme) :
    Follows s pos (r.step y) (s.onLexeme filter pos y) := by
  cases y with
  | value p => exact onValue_follows h.toHolds filter p pos
  | mark m =>
    cases m with
    | and => exact onAnd_follows h.toHolds pos
    | or => exact onOr_follows h.toHolds pos
    | not => exact onNegation_follows h.toHolds pos
    | openGroup => exact onOpenGroup_follows h.toHolds pos
    | closeGroup => exact onCloseGroup_follows h.toHolds pos
    | openBracket => exact onOpenBracket_follows h.toHolds pos
    | closeBracket => exact onCloseBracket_follows h.toHolds pos
    | equals => exact onEquals_follows h.toHolds pos
    | separator => exact onSeparator_follows h.toHolds h.previous pos

theorem consume_of_step (filter : List Char) {r' : Reading} (h : s.Reads r) {token : Token}
    (hstep : r.step token.lexeme = some r') :
    ∃ s', s.consume filter token = .ok s' ∧ s'.Reads r' := by
  have hfollows := onLexeme_follows h filter token.pos token.lexeme
  obtain ⟨hlast, hseparated⟩ := Reading.step_last h.start hstep
  rw [hstep] at hfollows
  generalize hresult : s.onLexeme filter token.pos token.lexeme = result at hfollows
  cases hfollows with
  | @reads _ s' holds =>
    refine ⟨{ s' with previous := some token.lexeme }, by rw [consume, hresult]; rfl, ?_⟩
    exact ⟨⟨holds.operands, holds.operators, holds.operatorAllowed, holds.bracketAllowed,
      holds.groupDepth, holds.inBracket, holds.unnested, holds.waiting, holds.start⟩,
      by simpa using hlast, hseparated⟩

theorem consume_of_refused (filter : List Char) (h : s.Reads r) {token : Token}
    (hstep : r.step token.lexeme = none) :
    ∃ e, s.consume filter token = .error e ∧ s.Refuses token.pos e := by
  have hfollows := onLexeme_follows h filter token.pos token.lexeme
  rw [hstep] at hfollows
  generalize hresult : s.onLexeme filter token.pos token.lexeme = result at hfollows
  cases hfollows with
  | @refuses e hrefuses => exact ⟨e, by rw [consume, hresult]; rfl, hrefuses⟩

/-- The tokens of a reading are read to the last. -/
theorem consumeAll_of_run (filter : List Char) {tokens : List Token} {r' : Reading} (h : s.Reads r)
    (hrun : r.run (tokens.map Token.lexeme) = some r') :
    ∃ s', s.consumeAll filter tokens = .ok s' ∧ s'.Reads r' := by
  induction tokens generalizing s r with
  | nil =>
    obtain rfl := Option.some.inj hrun
    exact ⟨s, rfl, h⟩
  | cons token tokens ih =>
    obtain ⟨next, hstep, hrun⟩ := Option.bind_eq_some_iff.mp hrun
    obtain ⟨s', hs', h'⟩ := consume_of_step filter h hstep
    obtain ⟨s'', hs'', h''⟩ := ih h' hrun
    refine ⟨s'', ?_, h''⟩
    simp only [consumeAll, hs', bind, Except.bind, hs'']

/-- Otherwise the first token with which no reading goes on is refused. -/
theorem consumeAll_of_refused (filter : List Char) {tokens : List Token} (h : s.Reads r)
    (hrun : r.run (tokens.map Token.lexeme) = none) :
    ∃ front token back s' e, tokens = front ++ token :: back ∧
      s.consumeAll filter front = .ok s' ∧ s'.Refuses token.pos e ∧
      s.consumeAll filter tokens = .error e := by
  induction tokens generalizing s r with
  | nil => cases hrun
  | cons token tokens ih =>
    rw [List.map_cons, Reading.run_cons] at hrun
    cases hstep : r.step token.lexeme with
    | none =>
      obtain ⟨e, he, hrefuses⟩ := consume_of_refused filter h hstep
      exact ⟨[], token, tokens, s, e, rfl, rfl, hrefuses,
        by simp only [consumeAll, he, bind, Except.bind]⟩
    | some next =>
      obtain ⟨s', hs', h'⟩ := consume_of_step filter h hstep
      rw [hstep] at hrun
      obtain ⟨front, last, back, s'', e, rfl, hs'', hrefuses, he⟩ := ih h' hrun
      exact ⟨token :: front, last, back, s'', e, rfl,
        by simp only [consumeAll, hs', bind, Except.bind, hs''], hrefuses,
        by simp only [consumeAll, hs', bind, Except.bind, he]⟩

theorem exists_reading_of_consumeAll {tokens : List Token} {s' : Parsing} (h : s.Reads r)
    (hs' : s.consumeAll filter tokens = .ok s') :
    ∃ r', r.run (tokens.map Token.lexeme) = some r' ∧ s'.Reads r' := by
  cases hrun : r.run (tokens.map Token.lexeme) with
  | none =>
    obtain ⟨_, _, _, _, e, -, -, -, he⟩ := consumeAll_of_refused filter h hrun
    rw [hs'] at he
    contradiction
  | some r' =>
    obtain ⟨s'', hs'', hreads⟩ := consumeAll_of_run filter h hrun
    obtain rfl := Except.ok.inj (hs'.symm.trans hs'')
    exact ⟨r', rfl, hreads⟩

theorem consumeAll_append (filter : List Char) (s : Parsing) (front back : List Token) :
    s.consumeAll filter (front ++ back) =
      (s.consumeAll filter front).bind fun s => s.consumeAll filter back := by
  induction front generalizing s with
  | nil => rfl
  | cons token front ih =>
    simp only [List.cons_append, consumeAll, bind]
    cases s.consume filter token with
    | error e => rfl
    | ok next => exact ih next

theorem applies_drain {kind : EntryKind}
    (h : kind = .or ∨ kind = .and ∨ kind = .not ∨ kind = .equals) : Applies drain kind := by
  intro budget entry entries operands hkind
  rw [drain]
  rcases h with rfl | rfl | rfl | rfl <;> rw [hkind] <;> rfl

theorem drain_nil (budget : Nat) (operands : List Expr) :
    drain budget [] operands = .ok operands := by
  cases budget <;> rfl

theorem reaches_separators {es rest : List Entry} {n : Nat}
    (hes : es.map Entry.kind = List.replicate n .separator) (operands : List Expr) :
    Reaches drain (es ++ rest) operands rest operands := by
  induction n generalizing es with
  | zero =>
    obtain rfl : es = [] := by simpa using hes
    exact .refl
  | succ n ih =>
    obtain ⟨entry, es, rfl, hkind, hes⟩ := List.map_eq_cons_iff.mp hes
    intro budget hb
    obtain ⟨budget, rfl, hbudget⟩ := exists_budget hb
    obtain ⟨budget', hb', he⟩ := ih hes budget hbudget
    refine ⟨budget', hb', ?_⟩
    rw [← he, List.cons_append, drain]
    simp only [hkind]

theorem fails_opener {entry : Entry} (h : entry.kind.isOpener = true) (entries : List Entry)
    (operands : List Expr) : Fails drain (entry :: entries) operands := by
  intro budget hb
  obtain ⟨budget, rfl, -⟩ := exists_budget hb
  cases hkind : entry.kind with
  | group => exact ⟨entry, by simp, .unclosedGroup, rfl, by simp [drain, hkind]⟩
  | bracket => exact ⟨entry, by simp, .unclosedBracket, rfl, by simp [drain, hkind]⟩
  | _ => simp [EntryKind.isOpener, hkind] at h

/-- The end of the filter completes what stands outside brackets and parentheses. -/
theorem reaches_end (h : s.Holds ⟨f, os, x⟩) (hx : x.operand? = some e)
    (closed : f.disjunction e = some tree) :
    ∃ entries, entries ⊆ s.operators ∧ entries.map Entry.kind = os.flatMap Opening.kinds ∧
      Reaches drain s.operators s.operands entries
        (tree :: (f.segments ++ os.flatMap Opening.operands)) := by
  obtain ⟨rest, hdrops, hrest, hreaches⟩ :=
    reaches_frame_disjunction (applies_drain (by simp)) (applies_drain (by simp))
      (applies_drain (by simp)) (applies_drain (by simp)) (fun _ => Opening.isOpener_of_head?)
      h.operators closed (os.flatMap Opening.operands)
  obtain ⟨es, entries, rfl, hes, hentries⟩ := List.map_eq_append_iff.mp hrest
  rw [← (h.allowed hx).2] at hreaches
  exact ⟨entries, fun _ hentry => hdrops.subset (List.mem_append_right es hentry), hentries,
    hreaches.trans (reaches_separators hes _)⟩

theorem reaches_end_of_separator (h : s.Reads ⟨f, os, .separator⟩) :
    ∃ entries, entries ⊆ s.operators ∧ entries.map Entry.kind = os.flatMap Opening.kinds ∧
      Reaches drain s.operators s.operands entries
        (f.segments ++ os.flatMap Opening.operands) := by
  have hf : f = ⟨f.leading, f.segments, [], [], []⟩ := h.separated rfl
  have hkinds : f.kinds = List.replicate f.separators .separator := by rw [hf]; rfl
  have hf' : f.operands = f.segments := by rw [hf]; rfl
  have hoperators := h.operators
  rw [hkinds] at hoperators
  obtain ⟨es, entries, he, hes, hentries⟩ := List.map_eq_append_iff.mp hoperators
  refine ⟨entries, he ▸ List.subset_append_right es entries, hentries, ?_⟩
  rw [(h.expecting rfl).2, hf', he]
  exact reaches_separators hes _

theorem finish_of_reaches {operands : List Expr} (hwaiting : s.waiting = none)
    (h : Reaches drain s.operators s.operands [] operands) :
    s.finish = if operands.isEmpty then .error ⟨.emptyFilter, none⟩ else .ok operands.reverse := by
  obtain ⟨budget, -, he⟩ := h s.operators.length (Nat.le_refl _)
  simp only [finish, hwaiting, he, drain_nil, bind, Except.bind]
  rfl

theorem finish_of_fails (hwaiting : s.waiting = none) (h : Fails drain s.operators s.operands) :
    ∃ entry ∈ s.operators, ∃ fault, fault.ofText = true ∧
      s.finish = .error (.at fault entry.pos) := by
  obtain ⟨entry, hentry, fault, hfault, he⟩ := h s.operators.length (Nat.le_refl _)
  refine ⟨entry, hentry, fault, hfault, ?_⟩
  simp only [finish, hwaiting, he, bind, Except.bind]

/-- The end of the filter is an error of an entry, of the mark that waits, or of an empty filter. -/
inductive Unfinished (s : Parsing) : SyntaxError → Prop
  | entry {entry : Entry} (h : entry ∈ s.operators) {fault : SyntaxFault}
      (hfault : fault.ofText = true) :
      Unfinished s (.at fault entry.pos)
  | waiting {mark : Mark} {pos : Nat} (h : s.waiting = some (mark, pos)) :
      Unfinished s (.at (.endAfterMark mark) pos)
  | empty : Unfinished s ⟨.emptyFilter, none⟩

/-- The parser ends as the reading does, or refuses the end with it. -/
inductive Ends (s : Parsing) : Option (List Expr) → Except SyntaxError (List Expr) → Prop
  | segments (segments : List Expr) : Ends s (some segments) (.ok segments)
  | unfinished {e : SyntaxError} (h : s.Unfinished e) : Ends s none (.error e)

/-- An opener that is left on the stack is never closed. -/
theorem ends_of_opening {entries : List Entry} {operands : List Expr} (hwaiting : s.waiting = none)
    (hsub : entries ⊆ s.operators)
    (hentries : entries.map Entry.kind = os.flatMap Opening.kinds) (hos : os ≠ [])
    (h : Reaches drain s.operators s.operands entries operands) :
    s.Ends (Reading.finish ⟨f, os, x⟩) s.finish := by
  obtain ⟨o, inner, rfl⟩ := List.exists_cons_of_ne_nil hos
  obtain ⟨entry, entries, rfl, hkind, -⟩ := List.map_eq_cons_iff.mp hentries
  have hopener : entry.kind.isOpener = true := hkind ▸ o.isOpener_kind
  obtain ⟨entry, hentry, fault, hfault, he⟩ :=
    finish_of_fails hwaiting (h.fails hsub (fails_opener hopener entries operands))
  have hfinish : Reading.finish ⟨f, o :: inner, x⟩ = none := by simp [Reading.finish]
  rw [he, hfinish]
  exact .unfinished (.entry hentry hfault)

theorem ends_of_operand (h : s.Reads ⟨f, os, x⟩) (hx : x.operand? = some e) :
    s.Ends (Reading.finish ⟨f, os, x⟩) s.finish := by
  have hwaiting := h.waiting_eq_none hx
  cases closed : f.disjunction e with
  | none =>
    have hunary : f.unary e = none := by
      simpa [Frame.disjunction, Frame.conjunction] using closed
    have hfails := fails_frame (applies_drain (by simp)) (applies_drain (by simp)) h.operators
      hunary (os.flatMap Opening.operands)
    rw [← (h.allowed hx).2] at hfails
    obtain ⟨entry, hentry, fault, hfault, he⟩ := finish_of_fails hwaiting hfails
    have hfinish : Reading.finish ⟨f, os, x⟩ = none := by
      cases os <;> simp [Reading.finish, hx, closed]
    rw [he, hfinish]
    exact .unfinished (.entry hentry hfault)
  | some tree =>
    obtain ⟨entries, hsub, hentries, hreaches⟩ := reaches_end h.toHolds hx closed
    by_cases hos : os = []
    · subst hos
      obtain rfl : entries = [] := by simpa using hentries
      rw [Reading.finish_operand hx closed, finish_of_reaches hwaiting hreaches]
      simpa using .segments _
    · exact ends_of_opening hwaiting hsub hentries hos hreaches

theorem ends_of_separator (h : s.Reads ⟨f, os, .separator⟩) :
    s.Ends (Reading.finish ⟨f, os, .separator⟩) s.finish := by
  have hwaiting : s.waiting = none := by simpa [LastLexeme.isMark] using h.waiting
  obtain ⟨entries, hsub, hentries, hreaches⟩ := reaches_end_of_separator h
  by_cases hos : os = []
  · subst hos
    obtain rfl : entries = [] := by simpa using hentries
    rw [finish_of_reaches hwaiting hreaches]
    cases hsegments : f.segments with
    | nil =>
      simp only [Reading.finish, LastLexeme.operand?, hsegments]
      exact .unfinished .empty
    | cons e segments =>
      simp only [Reading.finish, LastLexeme.operand?, hsegments, List.flatMap_nil,
        List.append_nil]
      exact .segments _
  · exact ends_of_opening hwaiting hsub hentries hos hreaches

theorem ends_of_mark (h : s.Holds ⟨f, os, .mark⟩) :
    s.Ends (Reading.finish ⟨f, os, .mark⟩) s.finish := by
  obtain ⟨⟨mark, pos⟩, hwaiting⟩ := Option.isSome_iff_exists.mp h.waiting
  have hfinish : Reading.finish ⟨f, os, .mark⟩ = none := by
    cases os <;> simp [Reading.finish, LastLexeme.operand?]
  have he : s.finish = .error (.at (.endAfterMark mark) pos) := by simp only [finish, hwaiting]
  rw [hfinish, he]
  exact .unfinished (.waiting hwaiting)

theorem ends_of_start (h : s.Holds .start) : s.Ends (Reading.finish .start) s.finish := by
  have hwaiting : s.waiting = none := by
    simpa [Reading.start, LastLexeme.isMark] using h.waiting
  have hoperators : s.operators = [] := by simpa [Reading.start] using h.operators
  have hoperands : s.operands = [] := h.operands
  have hreaches : Reaches drain s.operators s.operands [] [] := by
    rw [hoperators, hoperands]
    exact .refl
  have he : s.finish = .error ⟨.emptyFilter, none⟩ := finish_of_reaches hwaiting hreaches
  rw [he]
  exact .unfinished .empty

theorem finish_ends (h : s.Reads r) : s.Ends r.finish s.finish := by
  obtain ⟨f, os, x⟩ := r
  cases x with
  | start =>
    have hstart := h.start rfl
    rw [hstart] at h ⊢
    exact ends_of_start h.toHolds
  | mark => exact ends_of_mark h.toHolds
  | separator => exact ends_of_separator h
  | value p => exact ends_of_operand h rfl
  | compound e => exact ends_of_operand h rfl

end Parsing

section

variable {filter : List Char} {segments : List Expr}

theorem readSegments_of_dangling {s : Parsing} {pos : Nat}
    (h : Parsing.start.consumeAll filter (Lexing.ofFilter filter).tokens = .ok s)
    (hdangling : (Lexing.ofFilter filter).dangling = some pos) :
    readSegments filter = .error (.at .danglingEscape pos) := by
  simp only [readSegments, h, hdangling, bind, Except.bind]

theorem readSegments_of_complete {s : Parsing}
    (h : Parsing.start.consumeAll filter (Lexing.ofFilter filter).tokens = .ok s)
    (hdangling : (Lexing.ofFilter filter).dangling = none) :
    readSegments filter = s.finish := by
  simp only [readSegments, h, hdangling, bind, Except.bind]

theorem readSegments_of_refused {e : SyntaxError}
    (h : Parsing.start.consumeAll filter (Lexing.ofFilter filter).tokens = .error e) :
    readSegments filter = .error e := by
  simp only [readSegments, h, bind, Except.bind]

/-- How the reading of a text ends: at a token that no reading goes on with, at a backslash with
nothing after it, or at the end of the text. -/
inductive ReadsText (filter : List Char) : Except SyntaxError (List Expr) → Prop
  | refused {front back : List Token} {token : Token} {s : Parsing} {e : SyntaxError}
      (tokens : (Lexing.ofFilter filter).tokens = front ++ token :: back)
      (read : Parsing.start.consumeAll filter front = .ok s) (h : s.Refuses token.pos e) :
      ReadsText filter (.error e)
  | dangling {s : Parsing} {pos : Nat}
      (read : Parsing.start.consumeAll filter (Lexing.ofFilter filter).tokens = .ok s)
      (h : (Lexing.ofFilter filter).dangling = some pos) :
      ReadsText filter (.error (.at .danglingEscape pos))
  | finished {s : Parsing} {r : Reading} {result : Except SyntaxError (List Expr)}
      (read : Parsing.start.consumeAll filter (Lexing.ofFilter filter).tokens = .ok s)
      (run : Reading.start.run ((Lexing.ofFilter filter).tokens.map Token.lexeme) = some r)
      (whole : (Lexing.ofFilter filter).dangling = none) (h : s.Ends r.finish result) :
      ReadsText filter result

theorem readsText (filter : List Char) : ReadsText filter (readSegments filter) := by
  cases hrun : Reading.start.run ((Lexing.ofFilter filter).tokens.map Token.lexeme) with
  | none =>
    obtain ⟨front, token, back, s, e, tokens, read, hrefuses, he⟩ :=
      Parsing.consumeAll_of_refused filter Parsing.reads_start hrun
    rw [readSegments_of_refused he]
    exact .refused tokens read hrefuses
  | some r =>
    obtain ⟨s, read, hreads⟩ := Parsing.consumeAll_of_run filter Parsing.reads_start hrun
    cases hdangling : (Lexing.ofFilter filter).dangling with
    | some pos =>
      rw [readSegments_of_dangling read hdangling]
      exact .dangling read hdangling
    | none =>
      rw [readSegments_of_complete read hdangling]
      exact .finished read hrun hdangling (Parsing.finish_ends hreads)

theorem readSegments_of_derives (hdangling : (Lexing.ofFilter filter).dangling = none)
    (h : DerivesFilter ((Lexing.ofFilter filter).tokens.map Token.lexeme) segments) :
    readSegments filter = .ok segments := by
  obtain ⟨r, hrun, hfinish⟩ := Reading.finish_of_derives h
  obtain ⟨s, hs, hreads⟩ := Parsing.consumeAll_of_run filter Parsing.reads_start hrun
  have hends := Parsing.finish_ends hreads
  rw [readSegments_of_complete hs hdangling]
  rw [hfinish] at hends
  generalize s.finish = result at hends
  cases hends
  rfl

theorem derives_of_readSegments (h : readSegments filter = .ok segments) :
    (Lexing.ofFilter filter).dangling = none ∧
      DerivesFilter ((Lexing.ofFilter filter).tokens.map Token.lexeme) segments := by
  have hreads := readsText filter
  rw [h] at hreads
  cases hreads with
  | @finished _ r _ _ run whole ends =>
    generalize hfinish : r.finish = result at ends
    cases ends
    exact ⟨whole, (ReadingText.of_run run).finish hfinish⟩

/-- The two stacks read exactly the grammar, and build its trees. -/
theorem readSegments_eq_ok_iff :
    readSegments filter = .ok segments ↔
      (Lexing.ofFilter filter).dangling = none ∧
        DerivesFilter ((Lexing.ofFilter filter).tokens.map Token.lexeme) segments :=
  ⟨derives_of_readSegments, fun h => readSegments_of_derives h.1 h.2⟩

example : readSegments "A|B|(C|D)&!E".toList =
    .ok [.apply .or [.value ⟨['A']⟩, .value ⟨['B']⟩,
      .apply .and [.apply .or [.value ⟨['C']⟩, .value ⟨['D']⟩],
        .apply .not [.value ⟨['E']⟩]]]] := by cbv

end

end PathFilter
