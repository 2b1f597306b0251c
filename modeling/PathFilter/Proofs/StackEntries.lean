import PathFilter.Parsing
import PathFilter.Proofs.Validity

namespace PathFilter

/-- What a lexeme leaves on the operator stack. A closer only takes away from it. -/
def Lexeme.entryKind? : Lexeme → Option EntryKind
  | .value _ => none
  | .mark .and => some .and
  | .mark .or => some .or
  | .mark .not => some .not
  | .mark .separator => some .separator
  | .mark .openGroup => some .group
  | .mark .openBracket => some .bracket
  | .mark .equals => some .equals
  | .mark .closeGroup => none
  | .mark .closeBracket => none

def Token.entry? (token : Token) : Option Entry := token.lexeme.entryKind?.map (⟨·, token.pos⟩)

def Entry.isSeparator (entry : Entry) : Bool := entry.kind == .separator

/-- The entries of the separators among some tokens, in order. -/
def separatorEntries (tokens : List Token) : List Entry :=
  tokens.flatMap fun token => token.entry?.toList.filter Entry.isSeparator

theorem separatorEntries_cons (token : Token) (tokens : List Token) :
    separatorEntries (token :: tokens) =
      token.entry?.toList.filter Entry.isSeparator ++ separatorEntries tokens := rfl

theorem separatorEntries_append (front back : List Token) :
    separatorEntries (front ++ back) = separatorEntries front ++ separatorEntries back :=
  List.flatMap_append

theorem separatorEntries_separator (pos : Nat) (tokens : List Token) :
    separatorEntries (⟨.mark .separator, pos⟩ :: tokens) =
      ⟨.separator, pos⟩ :: separatorEntries tokens := rfl

theorem exists_of_mem_separatorEntries {tokens : List Token} {entry : Entry}
    (h : entry ∈ separatorEntries tokens) :
    ∃ token ∈ tokens, token.lexeme = .mark .separator ∧ token.pos = entry.pos := by
  obtain ⟨⟨y, pos⟩, htoken, hentry⟩ := List.mem_flatMap.mp h
  refine ⟨⟨y, pos⟩, htoken, ?_⟩
  cases y with
  | value p => contradiction
  | mark m =>
    cases m with
    | separator =>
      obtain rfl := List.mem_singleton.mp hentry
      exact ⟨rfl, rfl⟩
    | _ => contradiction

theorem separatorEntries_eq_nil {tokens : List Token}
    (h : ∀ token ∈ tokens, token.lexeme ≠ .mark .separator) : separatorEntries tokens = [] := by
  refine List.eq_nil_iff_forall_not_mem.mpr fun entry hentry => ?_
  obtain ⟨token, htoken, hlexeme, -⟩ := exists_of_mem_separatorEntries hentry
  exact h token htoken hlexeme

namespace Parsing

/-- A stack without some entries on its top, none of them a separator. -/
def Drops (entries entries' : List Entry) : Prop :=
  ∃ gone, entries = gone ++ entries' ∧ ∀ entry ∈ gone, entry.kind ≠ .separator

section

variable {entry : Entry} {entries entries' entries'' : List Entry}
variable {operands operands' taken taken' : List Expr} {s s' : Parsing} {pos : Nat}

namespace Drops

theorem refl (entries : List Entry) : Drops entries entries := ⟨[], rfl, nofun⟩

theorem cons (h : Drops entries entries') (hkind : entry.kind ≠ .separator) :
    Drops (entry :: entries) entries' := by
  obtain ⟨gone, rfl, hgone⟩ := h
  exact ⟨entry :: gone, rfl, List.forall_mem_cons.mpr ⟨hkind, hgone⟩⟩

theorem trans (h : Drops entries entries') (h' : Drops entries' entries'') :
    Drops entries entries'' := by
  obtain ⟨gone, rfl, hgone⟩ := h
  obtain ⟨gone', rfl, hgone'⟩ := h'
  exact ⟨gone ++ gone', (List.append_assoc _ _ _).symm, List.forall_mem_append.mpr ⟨hgone, hgone'⟩⟩

theorem of_append (h : .separator ∉ entries.map Entry.kind) (entries' : List Entry) :
    Drops (entries ++ entries') entries' :=
  ⟨entries, rfl, fun _ hentry hkind => h (hkind ▸ List.mem_map_of_mem hentry)⟩

theorem subset (h : Drops entries entries') : entries' ⊆ entries := by
  obtain ⟨gone, rfl, -⟩ := h
  exact List.subset_append_right gone entries'

/-- The separators stay as they are. -/
theorem separators (h : Drops entries entries') :
    entries.filter Entry.isSeparator = entries'.filter Entry.isSeparator := by
  obtain ⟨gone, rfl, hgone⟩ := h
  have hnone : gone.filter Entry.isSeparator = [] := by
    simpa [Entry.isSeparator] using hgone
  rw [List.filter_append, hnone, List.nil_append]

end Drops

theorem takeChain_drops {kind : EntryKind} (hkind : kind ≠ .separator)
    (h : takeChain kind entries operands taken = .ok (entries', operands', taken')) :
    Drops entries entries' := by
  induction entries generalizing operands taken with
  | nil =>
    obtain ⟨rfl, -, -⟩ := Prod.mk.inj (Except.ok.inj h)
    exact .refl []
  | cons entry entries ih =>
    rw [takeChain] at h
    split at h
    next hentry =>
      obtain ⟨⟨e, operands⟩, -, h⟩ := bind_eq_ok_iff.mp h
      exact (ih h).cons (hentry ▸ hkind)
    next =>
      obtain ⟨rfl, -, -⟩ := Prod.mk.inj (Except.ok.inj h)
      exact .refl _

theorem applyChain_drops {op : Operator} (hkind : entry.kind ≠ .separator)
    (h : applyChain op entry entries operands = .ok (entries', operands')) :
    Drops entries entries' := by
  obtain ⟨⟨last, operands⟩, -, h⟩ := bind_eq_ok_iff.mp h
  obtain ⟨⟨first, operands⟩, -, h⟩ := bind_eq_ok_iff.mp h
  obtain ⟨⟨entries, operands, taken⟩, htake, h⟩ := bind_eq_ok_iff.mp h
  obtain ⟨rfl, -⟩ := Prod.mk.inj (Except.ok.inj h)
  exact takeChain_drops hkind htake

/-- A separator is never applied. -/
theorem applyEntry_drops (h : applyEntry entry entries operands = .ok (entries', operands')) :
    entry.kind ≠ .separator ∧ Drops entries entries' := by
  unfold applyEntry at h
  split at h
  next hkind =>
    have hseparator : entry.kind ≠ .separator := hkind ▸ nofun
    exact ⟨hseparator, applyChain_drops hseparator h⟩
  next hkind =>
    have hseparator : entry.kind ≠ .separator := hkind ▸ nofun
    exact ⟨hseparator, applyChain_drops hseparator h⟩
  next hkind =>
    obtain ⟨⟨e, operands⟩, -, h⟩ := bind_eq_ok_iff.mp h
    obtain ⟨rfl, -⟩ := Prod.mk.inj (Except.ok.inj h)
    exact ⟨hkind ▸ nofun, .refl _⟩
  next hkind =>
    obtain ⟨⟨value, operands⟩, -, h⟩ := bind_eq_ok_iff.mp h
    obtain ⟨⟨key, operands⟩, -, h⟩ := bind_eq_ok_iff.mp h
    dsimp only at h
    split at h
    next =>
      obtain ⟨rfl, -⟩ := Prod.mk.inj (Except.ok.inj h)
      exact ⟨hkind ▸ nofun, .refl _⟩
    next => cases h
  next => cases h

theorem unwind_drops {applies : EntryKind → Bool} {budget : Nat}
    (h : unwind applies budget entries operands = .ok (entries', operands')) :
    Drops entries entries' := by
  induction budget generalizing entries operands with
  | zero =>
    obtain ⟨rfl, -⟩ := Prod.mk.inj (Except.ok.inj h)
    exact .refl _
  | succ budget ih =>
    cases entries with
    | nil =>
      obtain ⟨rfl, -⟩ := Prod.mk.inj (Except.ok.inj h)
      exact .refl _
    | cons entry entries =>
      rw [unwind] at h
      split at h
      next =>
        obtain ⟨⟨rest, operands⟩, happlied, h⟩ := bind_eq_ok_iff.mp h
        obtain ⟨hkind, hdrops⟩ := applyEntry_drops happlied
        exact (hdrops.trans (ih h)).cons hkind
      next =>
        obtain ⟨rfl, -⟩ := Prod.mk.inj (Except.ok.inj h)
        exact .refl _

/-- What a token at an index makes of a state. Its own entry, if it has one, lies on top of those
that it did not apply, and the mark that waits is the token, or it waited before. -/
structure Advances (s : Parsing) (own : Option Entry) (pos : Nat) (s' : Parsing) : Prop where
  operators : ∃ rest, s'.operators = own.toList ++ rest ∧ Drops s.operators rest
  waiting : ∀ mark pos', s'.waiting = some (mark, pos') →
    pos' = pos ∨ s.waiting = some (mark, pos')

theorem Advances.of_mark {own : Option Entry} {mark : Mark}
    (operators : ∃ rest, s'.operators = own.toList ++ rest ∧ Drops s.operators rest)
    (waiting : s'.waiting = some (mark, pos)) : s.Advances own pos s' := by
  refine ⟨operators, fun _ _ hwaiting => .inl ?_⟩
  rw [waiting] at hwaiting
  exact (Prod.mk.inj (Option.some.inj hwaiting)).2.symm

theorem pushOperator_advances {kind : EntryKind} (h : s.pushOperator kind pos = .ok s') :
    s.Advances (some ⟨kind, pos⟩) pos s' := by
  obtain ⟨⟨entries, operands⟩, hunwind, h⟩ := bind_eq_ok_iff.mp h
  obtain rfl := Except.ok.inj h
  exact ⟨⟨entries, rfl, unwind_drops hunwind⟩, fun _ _ => .inr⟩

theorem close_advances {opener : EntryKind} (hopener : opener ≠ .separator)
    {closer openMark : Mark} (h : s.close opener closer openMark pos = .ok s') :
    s.Advances none pos s' := by
  obtain ⟨⟨entries, operands⟩, hunwind, h⟩ := bind_eq_ok_iff.mp h
  have hdrops := unwind_drops hunwind
  dsimp only at h
  split at h
  next => cases h
  next entry entries =>
    obtain ⟨hentry, h⟩ := ite_ok_eq_ok_iff.mp h
    obtain rfl := Except.ok.inj h
    have hrest := hdrops.trans ((Drops.refl entries).cons (hentry ▸ hopener))
    exact ⟨⟨entries, rfl, hrest⟩, fun _ _ => .inr⟩

theorem onConnective_advances {mark : Mark} {kind : EntryKind}
    (h : s.onConnective mark kind pos = .ok s') : s.Advances (some ⟨kind, pos⟩) pos s' := by
  obtain ⟨-, h⟩ := ite_ok_eq_ok_iff.mp h
  obtain ⟨pushed, hpush, h⟩ := bind_eq_ok_iff.mp h
  obtain rfl := Except.ok.inj h
  exact .of_mark (pushOperator_advances hpush).operators rfl

theorem onSeparator_advances (h : s.onSeparator pos = .ok s') :
    s.Advances (some ⟨.separator, pos⟩) pos s' := by
  unfold onSeparator at h
  split at h
  next => cases h
  next =>
    obtain ⟨-, h⟩ := ite_error_eq_ok_iff.mp h
    obtain ⟨-, h⟩ := ite_error_eq_ok_iff.mp h
    obtain ⟨pushed, hpush, h⟩ := bind_eq_ok_iff.mp h
    obtain rfl := Except.ok.inj h
    obtain ⟨operators, waiting⟩ := pushOperator_advances hpush
    exact ⟨operators, waiting⟩

theorem onCloseGroup_advances (h : s.onCloseGroup pos = .ok s') : s.Advances none pos s' := by
  obtain ⟨-, h⟩ := ite_ok_eq_ok_iff.mp h
  obtain ⟨closed, hclose, h⟩ := bind_eq_ok_iff.mp h
  obtain rfl := Except.ok.inj h
  obtain ⟨operators, waiting⟩ := close_advances (by decide) hclose
  exact ⟨operators, waiting⟩

theorem onCloseBracket_advances (h : s.onCloseBracket pos = .ok s') : s.Advances none pos s' := by
  obtain ⟨-, h⟩ := ite_ok_eq_ok_iff.mp h
  obtain ⟨closed, hclose, h⟩ := bind_eq_ok_iff.mp h
  obtain ⟨operators, waiting⟩ := close_advances (by decide) hclose
  obtain ⟨⟨filter, operands⟩, -, h⟩ := bind_eq_ok_iff.mp h
  obtain ⟨⟨node, operands⟩, -, h⟩ := bind_eq_ok_iff.mp h
  dsimp only at h
  split at h
  next =>
    obtain rfl := Except.ok.inj h
    exact ⟨operators, waiting⟩
  next => cases h

theorem onLexeme_advances {filter : List Char} {y : Lexeme} (h : s.onLexeme filter pos y = .ok s') :
    s.Advances (y.entryKind?.map (⟨·, pos⟩)) pos s' := by
  cases y with
  | value p =>
    obtain ⟨-, h⟩ := ite_error_eq_ok_iff.mp h
    obtain rfl := Except.ok.inj h
    exact ⟨⟨_, rfl, .refl _⟩, nofun⟩
  | mark m =>
    cases m with
    | and | or => exact onConnective_advances h
    | separator => exact onSeparator_advances h
    | closeGroup => exact onCloseGroup_advances h
    | closeBracket => exact onCloseBracket_advances h
    | not | openGroup =>
      obtain ⟨-, h⟩ := ite_error_eq_ok_iff.mp h
      obtain rfl := Except.ok.inj h
      exact .of_mark ⟨_, rfl, .refl _⟩ rfl
    | openBracket =>
      obtain ⟨-, h⟩ := ite_ok_eq_ok_iff.mp h
      obtain rfl := Except.ok.inj h
      exact .of_mark ⟨_, rfl, .refl _⟩ rfl
    | equals =>
      obtain ⟨-, h⟩ := ite_error_eq_ok_iff.mp h
      obtain ⟨-, h⟩ := ite_error_eq_ok_iff.mp h
      obtain rfl := Except.ok.inj h
      exact .of_mark ⟨_, rfl, .refl _⟩ rfl

theorem consume_advances {filter : List Char} {token : Token}
    (h : s.consume filter token = .ok s') : s.Advances token.entry? token.pos s' := by
  obtain ⟨read, hread, h⟩ := bind_eq_ok_iff.mp h
  obtain rfl := Except.ok.inj h
  obtain ⟨operators, waiting⟩ := onLexeme_advances hread
  exact ⟨operators, waiting⟩

/-- What holds before the tokens and is kept by each of them holds after them. -/
theorem consumeAll_induction {P : List Token → Parsing → Prop} {filter : List Char}
    {tokens : List Token} (before : P [] s)
    (step : ∀ front token s s', P front s → s.Advances token.entry? token.pos s' →
      P (front ++ [token]) s')
    (h : s.consumeAll filter tokens = .ok s') : P tokens s' := by
  have hall : ∀ tokens front s, P front s → s.consumeAll filter tokens = .ok s' →
      P (front ++ tokens) s' := by
    intro tokens
    induction tokens with
    | nil =>
      intro front s hs h
      obtain rfl := Except.ok.inj h
      simpa using hs
    | cons token tokens ih =>
      intro front s hs h
      obtain ⟨next, hnext, h⟩ := bind_eq_ok_iff.mp h
      simpa using ih (front ++ [token]) next (step front token s next hs (consume_advances hnext)) h
  exact hall tokens [] s before h

/-- The separators of the text lie on the stack, the last one on top, whatever else was read. -/
theorem separators_of_start {filter : List Char} {tokens : List Token}
    (h : start.consumeAll filter tokens = .ok s) :
    s.operators.filter Entry.isSeparator = (separatorEntries tokens).reverse := by
  refine consumeAll_induction
    (P := fun front s => s.operators.filter Entry.isSeparator = (separatorEntries front).reverse)
    rfl (fun front token s s' hs hadvances => ?_) h
  obtain ⟨rest, hoperators, hdrops⟩ := hadvances.operators
  -- a token has one entry at most, so its own part reads the same from the top
  have hown : (separatorEntries [token]).reverse =
      token.entry?.toList.filter Entry.isSeparator := by
    rw [separatorEntries, List.flatMap_singleton]
    cases token.entry? with
    | none => rfl
    | some entry => cases hentry : entry.isSeparator <;> simp [hentry]
  rw [hoperators, List.filter_append, ← hdrops.separators, hs, separatorEntries_append,
    List.reverse_append, hown]

end

end Parsing

end PathFilter
