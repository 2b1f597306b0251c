import PathFilter.Proofs.ReadingRun
import PathFilter.Proofs.Stacks

namespace PathFilter

namespace Parsing

variable {s : Parsing} {f : Frame} {os : List Opening} {x : LastLexeme} {e tree : Expr}

theorem Holds.allowed (h : s.Holds ⟨f, os, x⟩) (hx : x.operand? = some e) :
    s.operatorAllowed = true ∧ s.operands = e :: (f.operands ++ os.flatMap Opening.operands) := by
  refine ⟨?_, ?_⟩
  · rw [h.operatorAllowed, hx]
    rfl
  · rw [h.operands, hx]
    rfl

theorem Holds.expecting (h : s.Holds ⟨f, os, x⟩) (hx : x.operand? = none) :
    s.operatorAllowed = false ∧ s.operands = f.operands ++ os.flatMap Opening.operands := by
  refine ⟨?_, ?_⟩
  · rw [h.operatorAllowed, hx]
    rfl
  · rw [h.operands, hx]
    rfl

theorem Holds.waiting_eq_none (h : s.Holds ⟨f, os, x⟩) (hx : x.operand? = some e) :
    s.waiting = none := by
  have hwaiting := h.waiting
  cases x <;> simp_all [LastLexeme.operand?, LastLexeme.isMark]

/-- What may stand before an operand only is refused after one. -/
theorem follows_expecting (h : s.Holds ⟨f, os, x⟩) {next : Reading} {s' : Parsing}
    {fault : SyntaxFault} (hfault : fault.ofText = true)
    (holds : x.operand? = none → s'.Holds next) (pos : Nat) :
    Follows s pos (Reading.expecting ⟨f, os, x⟩ next)
      (if s.operatorAllowed then .error (.at fault pos) else .ok s') := by
  cases hx : x.operand? with
  | some e =>
    rw [Reading.expecting_eq_none hx, if_pos (h.allowed hx).1]
    exact .refuses (.atToken s pos hfault)
  | none =>
    have hnext : Reading.expecting ⟨f, os, x⟩ next = some next :=
      Reading.expecting_eq_some_iff.mpr ⟨hx, rfl⟩
    rw [hnext, if_neg (by simp [(h.expecting hx).1])]
    exact .reads (holds hx)

/-- What must stand after an operand is refused without one. -/
theorem follows_withOperand (h : s.Holds ⟨f, os, x⟩) {next : Expr → Option Reading}
    {result : Except SyntaxError Parsing} {fault : SyntaxFault}
    (hfault : fault.ofText = true) {pos : Nat}
    (follows : ∀ e, x.operand? = some e → Follows s pos (next e) result) :
    Follows s pos (Reading.withOperand ⟨f, os, x⟩ next)
      (if s.operatorAllowed then result else .error (.at fault pos)) := by
  cases hx : x.operand? with
  | some e =>
    rw [Reading.withOperand_of_operand hx, if_pos (h.allowed hx).1]
    exact follows e hx
  | none =>
    rw [Reading.withOperand_eq_none hx, if_neg (by simp [(h.expecting hx).1])]
    exact .refuses (.atToken s pos hfault)

theorem onValue_follows (h : s.Holds ⟨f, os, x⟩) (filter : List Char) (p : Pattern) (pos : Nat) :
    Follows s pos (Reading.step ⟨f, os, x⟩ (.value p)) (s.onValue filter p pos) := by
  refine follows_expecting h rfl (fun hx => ?_) pos
  obtain ⟨-, hoperands⟩ := h.expecting hx
  exact ⟨by simp [hoperands, LastLexeme.operand?], h.operators, rfl, rfl, h.groupDepth,
    h.inBracket, h.unnested, rfl, by simp⟩

theorem onNegation_follows (h : s.Holds ⟨f, os, x⟩) (pos : Nat) :
    Follows s pos (Reading.step ⟨f, os, x⟩ (.mark .not)) (s.onNegation pos) := by
  refine follows_expecting h rfl (fun hx => ?_) pos
  obtain ⟨hallowed, hoperands⟩ := h.expecting hx
  exact ⟨by simp [hoperands, LastLexeme.operand?, Tight.operands],
    by simp [h.operators, Tight.kind], hallowed, rfl, h.groupDepth, h.inBracket, h.unnested, rfl,
    by simp⟩

theorem onOpenGroup_follows (h : s.Holds ⟨f, os, x⟩) (pos : Nat) :
    Follows s pos (Reading.step ⟨f, os, x⟩ (.mark .openGroup)) (s.onOpenGroup pos) := by
  refine follows_expecting h rfl (fun hx => ?_) pos
  obtain ⟨-, hoperands⟩ := h.expecting hx
  exact ⟨by simp [hoperands, LastLexeme.operand?, Opening.operands],
    by simp [h.operators, Opening.kinds, Opening.kind, Opening.outer], rfl, rfl,
    by simp [h.groupDepth, List.countP_cons, Opening.isGroup],
    by simp [h.inBracket, Opening.isBracket],
    by simpa [List.countP_cons, Opening.isBracket] using h.unnested, rfl, by simp⟩

theorem onEquals_follows (h : s.Holds ⟨f, os, x⟩) (pos : Nat) :
    Follows s pos (Reading.step ⟨f, os, x⟩ (.mark .equals)) (s.onEquals pos) := by
  by_cases hin : os.any Opening.isBracket = true
  · have hin' : s.inBracket = true := h.inBracket.trans hin
    cases hx : x.operand? with
    | none =>
      have hstep : Reading.step ⟨f, os, x⟩ (.mark .equals) = none :=
        Reading.withOperand_eq_none hx _
      rw [hstep, onEquals, if_neg (by simp [hin']), if_pos (by simp [(h.expecting hx).1])]
      exact .refuses (.atToken s pos rfl)
    | some e =>
      obtain ⟨hallowed, hoperands⟩ := h.allowed hx
      rw [Reading.step_equals hx (if_pos hin), onEquals, if_neg (by simp [hin']),
        if_neg (by simp [hallowed])]
      exact .reads ⟨by simp [hoperands, LastLexeme.operand?, Tight.operands],
        by simp [h.operators, Tight.kind], rfl, rfl, h.groupDepth, h.inBracket, h.unnested, rfl,
        by simp⟩
  · have hstep : Reading.step ⟨f, os, x⟩ (.mark .equals) = none := by
      cases hx : x.operand? <;> simp [Reading.step, Reading.withOperand, Reading.inBracket, hx, hin]
    rw [hstep, onEquals, if_pos (by simp [h.inBracket, hin])]
    exact .refuses (.atToken s pos rfl)

theorem onOpenBracket_follows (h : s.Holds ⟨f, os, x⟩) (pos : Nat) :
    Follows s pos (Reading.step ⟨f, os, x⟩ (.mark .openBracket)) (s.onOpenBracket pos) := by
  by_cases hv : x.isValue = true ∧ ¬os.any Opening.isBracket = true
  · obtain ⟨hvalue, hout⟩ := hv
    obtain ⟨p, rfl⟩ : ∃ p, x = .value p := by cases x <;> simp_all [LastLexeme.isValue]
    obtain ⟨-, hoperands⟩ := h.allowed (e := .value (.ofPattern p)) rfl
    have hnone : os.countP Opening.isBracket = 0 := by
      simpa [List.countP_eq_zero] using hout
    rw [Reading.step_openBracket p (if_neg hout), onOpenBracket,
      if_pos (by simp [h.bracketAllowed, h.inBracket, hout, LastLexeme.isValue])]
    exact .reads ⟨by simp [hoperands, LastLexeme.operand?, Opening.operands],
      by simp [h.operators, Opening.kinds, Opening.kind, Opening.outer], rfl, rfl,
      by simp [h.groupDepth, Opening.isGroup], by simp [Opening.isBracket],
      by simp [List.countP_cons, Opening.isBracket, hnone], rfl, by simp⟩
  · have hstep : Reading.step ⟨f, os, x⟩ (.mark .openBracket) = none := by
      cases x <;> simp_all [Reading.step, Reading.onOpenBracket, Reading.inBracket,
        LastLexeme.isValue]
    rw [hstep, onOpenBracket, if_neg (by simpa [h.bracketAllowed, h.inBracket] using hv)]
    exact .refuses (.atToken s pos rfl)

/-- An operand that no frame completes is refused by every operator that is pushed. -/
theorem pushOperator_refuses (kind : EntryKind) (h : s.Holds ⟨f, os, x⟩)
    (hkind : tighterThan kind .not = true ∧ tighterThan kind .equals = true)
    (hx : x.operand? = some e) (closed : f.unary e = none) (pos : Nat) :
    ∃ error, s.pushOperator kind pos = .error error ∧ s.Refuses pos error := by
  have hfails := fails_frame (applies_unwind _ hkind.1) (applies_unwind _ hkind.2) h.operators
    closed (os.flatMap Opening.operands)
  rw [← (h.allowed hx).2] at hfails
  exact pushOperator_of_fails hfails pos

/-- The operator is pushed on a stack that holds a larger frame. -/
def Pushes (s : Parsing) (kind : EntryKind) (f : Frame) (os : List Opening) (pos : Nat) : Prop :=
  ∃ entries operands,
    s.pushOperator kind pos =
      .ok { s with operators := ⟨kind, pos⟩ :: entries, operands := operands } ∧
    kind :: entries.map Entry.kind = f.kinds ++ os.flatMap Opening.kinds ∧
    operands = f.operands ++ os.flatMap Opening.operands

theorem pushes_factor (h : s.Holds ⟨f, os, x⟩) (hx : x.operand? = some e)
    (closed : f.unary e = some tree) (pos : Nat) : s.Pushes .and (f.addFactor tree) os pos := by
  obtain ⟨entries, -, hentries, hreaches⟩ :=
    reaches_frame_unary (applies_unwind (tighterThan .and) rfl) (applies_unwind _ rfl) h.operators
      closed (os.flatMap Opening.operands)
  rw [← (h.allowed hx).2] at hreaches
  have hks : ∀ k ∈ List.replicate f.factors.length EntryKind.and ++
      (List.replicate f.alternatives.length .or ++ List.replicate f.separators .separator),
      tighterThan .and k = false := by
    simp only [List.mem_append, List.mem_replicate]
    rintro k (⟨-, rfl⟩ | ⟨-, rfl⟩ | ⟨-, rfl⟩) <;> rfl
  have hstop := stops_at (by simpa using hentries) hks
  exact ⟨entries, _, pushOperator_of_reaches hreaches hstop pos, by simp [hentries], by simp⟩

theorem pushes_alternative (h : s.Holds ⟨f, os, x⟩) (hx : x.operand? = some e)
    (closed : f.conjunction e = some tree) (pos : Nat) :
    s.Pushes .or (f.addAlternative tree) os pos := by
  obtain ⟨entries, -, hentries, hreaches⟩ :=
    reaches_frame_conjunction (applies_unwind (tighterThan .or) rfl) (applies_unwind _ rfl)
      (applies_unwind _ rfl) (fun _ => Opening.isOpener_of_head?) h.operators closed
      (os.flatMap Opening.operands)
  rw [← (h.allowed hx).2] at hreaches
  have hks : ∀ k ∈ List.replicate f.alternatives.length EntryKind.or ++
      List.replicate f.separators .separator, tighterThan .or k = false := by
    simp only [List.mem_append, List.mem_replicate]
    rintro k (⟨-, rfl⟩ | ⟨-, rfl⟩) <;> rfl
  have hstop := stops_at (by simpa using hentries) hks
  exact ⟨entries, _, pushOperator_of_reaches hreaches hstop pos, by simp [hentries], by simp⟩

theorem pushes_segment (h : s.Holds ⟨f, os, x⟩) (hx : x.operand? = some e)
    (closed : f.disjunction e = some tree) (pos : Nat) :
    s.Pushes .separator (f.addSegment tree) os pos := by
  obtain ⟨entries, -, hentries, hreaches⟩ :=
    reaches_frame_disjunction (applies_unwind (tighterThan .separator) rfl) (applies_unwind _ rfl)
      (applies_unwind _ rfl) (applies_unwind _ rfl) (fun _ => Opening.isOpener_of_head?)
      h.operators closed (os.flatMap Opening.operands)
  rw [← (h.allowed hx).2] at hreaches
  have hks : ∀ k ∈ List.replicate f.separators EntryKind.separator,
      tighterThan .separator k = false := by
    simp only [List.mem_replicate]
    rintro k ⟨-, rfl⟩
    rfl
  have hstop := stops_at hentries hks
  exact ⟨entries, _, pushOperator_of_reaches hreaches hstop pos, by simp [hentries], by simp⟩

/-- The connectives differ in what they complete and in what they add it to. -/
theorem onConnective_follows (h : s.Holds ⟨f, os, x⟩) (mark : Mark) (kind : EntryKind) (pos : Nat)
    (hkind : tighterThan kind .not = true ∧ tighterThan kind .equals = true)
    {complete : Expr → Option Expr} {add : Expr → Frame}
    (fails : ∀ e, complete e = none → f.unary e = none)
    (pushes : ∀ e tree, x.operand? = some e → complete e = some tree →
      s.Pushes kind (add tree) os pos) :
    Follows s pos
      (Reading.withOperand ⟨f, os, x⟩ fun e => (complete e).map fun tree => ⟨add tree, os, .mark⟩)
      (s.onConnective mark kind pos) := by
  refine follows_withOperand h rfl fun e hx => ?_
  cases closed : complete e with
  | none =>
    obtain ⟨error, herror, hrefuses⟩ := pushOperator_refuses kind h hkind hx (fails e closed) pos
    rw [herror]
    exact .refuses hrefuses
  | some tree =>
    obtain ⟨entries, operands, hpush, hkinds, hoperands⟩ := pushes e tree hx closed
    rw [hpush]
    exact .reads ⟨hoperands, hkinds, rfl, rfl, h.groupDepth, h.inBracket, h.unnested, rfl, by simp⟩

theorem onAnd_follows (h : s.Holds ⟨f, os, x⟩) (pos : Nat) :
    Follows s pos (Reading.step ⟨f, os, x⟩ (.mark .and)) (s.onConnective .and .and pos) :=
  onConnective_follows h .and .and pos ⟨rfl, rfl⟩ (fun _ closed => closed)
    fun _ _ hx closed => pushes_factor h hx closed pos

theorem onOr_follows (h : s.Holds ⟨f, os, x⟩) (pos : Nat) :
    Follows s pos (Reading.step ⟨f, os, x⟩ (.mark .or)) (s.onConnective .or .or pos) :=
  onConnective_follows h .or .or pos ⟨rfl, rfl⟩ (fun _ closed => Option.map_eq_none_iff.mp closed)
    fun _ _ hx closed => pushes_alternative h hx closed pos

theorem onSeparator_operand (h : s.Holds ⟨f, os, x⟩) (hx : x.operand? = some e)
    (hout : ¬os.any Opening.isGroup = true) (pos : Nat) :
    Follows s pos (Reading.step ⟨f, os, x⟩ (.mark .separator))
      ((s.pushOperator .separator pos).bind fun s =>
        .ok { s with operatorAllowed := false, bracketAllowed := false }) := by
  have hstep : Reading.step ⟨f, os, x⟩ (.mark .separator) =
      (f.disjunction e).map fun e => ⟨f.addSegment e, os, .separator⟩ := by
    simp [Reading.step, Reading.onSeparator, Reading.inGroup, hx, hout]
  rw [hstep]
  cases closed : f.disjunction e with
  | none =>
    have hunary : f.unary e = none := by
      simpa [Frame.disjunction, Frame.conjunction] using closed
    obtain ⟨error, herror, hrefuses⟩ :=
      pushOperator_refuses .separator h ⟨rfl, rfl⟩ hx hunary pos
    rw [herror]
    exact .refuses hrefuses
  | some tree =>
    obtain ⟨entries, operands, hpush, hkinds, hoperands⟩ := pushes_segment h hx closed pos
    rw [hpush]
    exact .reads ⟨hoperands, hkinds, rfl, rfl, h.groupDepth, h.inBracket, h.unnested,
      by simp [h.waiting_eq_none hx, LastLexeme.isMark], by simp⟩

theorem onSeparator_follows (h : s.Holds ⟨f, os, x⟩)
    (hprevious : s.previous = some (.mark .separator) ↔ x = .separator) (pos : Nat) :
    Follows s pos (Reading.step ⟨f, os, x⟩ (.mark .separator)) (s.onSeparator pos) := by
  by_cases hmark : x = .mark
  · subst hmark
    obtain ⟨⟨mark, at₀⟩, hwaiting⟩ := Option.isSome_iff_exists.mp h.waiting
    have hstep : Reading.step ⟨f, os, .mark⟩ (.mark .separator) = none := by
      simp [Reading.step, Reading.onSeparator, LastLexeme.operand?]
    rw [hstep, onSeparator, hwaiting]
    exact .refuses (.atToken s pos rfl)
  have hwaiting : s.waiting = none := by
    have hw := h.waiting
    cases x <;> simp_all [LastLexeme.isMark]
  by_cases hseparator : x = .separator
  · have hstep : Reading.step ⟨f, os, x⟩ (.mark .separator) = none := by
      simp [hseparator, Reading.step, Reading.onSeparator, LastLexeme.operand?]
    simp only [hstep, onSeparator, hwaiting, if_pos (hprevious.mpr hseparator)]
    exact .refuses (.atToken s pos rfl)
  by_cases hgroup : os.any Opening.isGroup = true
  · have hdepth : 0 < s.groupDepth := by
      rw [h.groupDepth]
      simpa [List.countP_pos_iff] using hgroup
    have hstep : Reading.step ⟨f, os, x⟩ (.mark .separator) = none := by
      simp [Reading.step, Reading.onSeparator, Reading.inGroup, hgroup]
    simp only [hstep, onSeparator, hwaiting, if_neg (mt hprevious.mp hseparator), if_pos hdepth]
    exact .refuses (.atToken s pos rfl)
  have hdepth : ¬0 < s.groupDepth := by
    rw [h.groupDepth]
    simpa [List.countP_pos_iff] using hgroup
  simp only [onSeparator, hwaiting, if_neg (mt hprevious.mp hseparator), if_neg hdepth]
  cases hx : x.operand? with
  | some e => exact onSeparator_operand h hx hgroup pos
  | none =>
    obtain rfl : x = .start := by cases x <;> simp_all [LastLexeme.operand?]
    obtain ⟨rfl, rfl, -⟩ := Reading.mk.inj (h.start rfl)
    have hoperators : s.operators = [] := by simpa using h.operators
    have hoperands : s.operands = [] := by simpa [LastLexeme.operand?] using h.operands
    have hpush : s.pushOperator .separator pos = _ :=
      pushOperator_of_reaches .refl (by simp [hoperators]) pos
    simp only [bind, hpush]
    exact .reads ⟨by simp [hoperands, LastLexeme.operand?, Frame.operands, Frame.empty],
      by simp [hoperators, Frame.kinds, Frame.separators, Frame.empty], rfl, rfl, h.groupDepth,
      h.inBracket, h.unnested, by simp [hwaiting, LastLexeme.isMark], by simp⟩

/-- What the frame holds is applied up to the innermost opener. -/
theorem unwind_of_enclosed (h : s.Holds ⟨f, os, x⟩) (hx : x.operand? = some e)
    (closed : f.enclosed e = some tree) :
    ∃ entries, entries.map Entry.kind = os.flatMap Opening.kinds ∧
      unwind (fun top => !top.isOpener) s.operators.length s.operators s.operands =
        .ok (entries, tree :: os.flatMap Opening.operands) := by
  unfold Frame.enclosed at closed
  split at closed
  next hzero =>
    obtain ⟨entries, -, hentries, hreaches⟩ :=
      reaches_frame_disjunction (applies_unwind (fun top => !top.isOpener) rfl)
        (applies_unwind _ rfl) (applies_unwind _ rfl) (applies_unwind _ rfl)
        (fun _ => Opening.isOpener_of_head?) h.operators closed (os.flatMap Opening.operands)
    have hsegments : f.segments = [] := by
      have := hzero
      simp only [Frame.separators, Nat.add_eq_zero_iff, List.length_eq_zero_iff] at this
      exact this.1
    rw [← (h.allowed hx).2, hsegments] at hreaches
    rw [hzero] at hentries
    refine ⟨entries, hentries, unwind_of_reaches hreaches ?_⟩
    intro k hhead
    rw [hentries] at hhead
    simp [Opening.isOpener_of_head? hhead]
  next => contradiction

/-- A separator before a closer cannot be applied. The last one is met first. -/
theorem unwind_of_separators (h : s.Holds ⟨f, os, x⟩) (hx : x.operand? = some e)
    (closed : f.disjunction e = some tree) (hseparators : f.separators ≠ 0) :
    ∃ entry entries, s.operators.filter Entry.isSeparator = entry :: entries ∧
      unwind (fun top => !top.isOpener) s.operators.length s.operators s.operands =
        .error (.at .enclosedSeparator entry.pos) := by
  obtain ⟨rest, hdrops, hrest, hreaches⟩ :=
    reaches_frame_disjunction (applies_unwind (fun top => !top.isOpener) rfl)
      (applies_unwind _ rfl) (applies_unwind _ rfl) (applies_unwind _ rfl)
      (fun _ => Opening.isOpener_of_head?) h.operators closed (os.flatMap Opening.operands)
  rw [← (h.allowed hx).2] at hreaches
  obtain ⟨n, hn⟩ := Nat.exists_eq_succ_of_ne_zero hseparators
  rw [hn, List.replicate_succ, List.cons_append] at hrest
  obtain ⟨entry, entries, rfl, hkind, -⟩ := List.map_eq_cons_iff.mp hrest
  refine ⟨entry, entries.filter Entry.isSeparator, ?_, ?_⟩
  · rw [hdrops.separators, List.filter_cons_of_pos (by simp [Entry.isSeparator, hkind])]
  · obtain ⟨budget, hb, he⟩ := hreaches s.operators.length (Nat.le_refl _)
    obtain ⟨budget, rfl, -⟩ := exists_budget hb
    rw [he, applies_unwind _ rfl budget entry entries _ hkind]
    simp [applyEntry, hkind, Except.bind]

theorem close_refuses (h : s.Holds ⟨f, os, x⟩) (hx : x.operand? = some e)
    (closed : f.enclosed e = none) (opener : EntryKind) (closer openMark : Mark) (pos : Nat) :
    ∃ error, s.close opener closer openMark pos = .error error ∧ s.Refuses pos error := by
  have hfails : ∃ entry ∈ s.operators, ∃ fault, fault.ofText = true ∧
      unwind (fun top => !top.isOpener) s.operators.length s.operators s.operands =
        .error (.at fault entry.pos) := by
    cases hdisjunction : f.disjunction e with
    | none =>
      have hunary : f.unary e = none := by
        simpa [Frame.disjunction, Frame.conjunction] using hdisjunction
      have hfails := fails_frame (applies_unwind (fun top => !top.isOpener) rfl)
        (applies_unwind _ rfl) h.operators hunary (os.flatMap Opening.operands)
      rw [← (h.allowed hx).2] at hfails
      exact hfails s.operators.length (Nat.le_refl _)
    | some tree =>
      have hseparators : f.separators ≠ 0 := by
        intro hzero
        simp [Frame.enclosed, hzero, hdisjunction] at closed
      obtain ⟨entry, entries, hfilter, he⟩ := unwind_of_separators h hx hdisjunction hseparators
      have hentry : entry ∈ s.operators := List.mem_of_mem_filter (hfilter ▸ List.mem_cons_self)
      exact ⟨entry, hentry, .enclosedSeparator, rfl, he⟩
  obtain ⟨entry, hentry, fault, hfault, he⟩ := hfails
  refine ⟨.at fault entry.pos, ?_, .inr ⟨entry, hentry, rfl⟩, hfault⟩
  simp only [close, he, bind, Except.bind]

theorem close_of_unopened (h : s.Holds ⟨f, [], x⟩) (hx : x.operand? = some e)
    (closed : f.enclosed e = some tree) (opener : EntryKind) (closer openMark : Mark) (pos : Nat) :
    s.close opener closer openMark pos = .error (.at (.unopened closer openMark) pos) := by
  obtain ⟨entries, hentries, hunwind⟩ := unwind_of_enclosed h hx closed
  obtain rfl : entries = [] := by simpa using hentries
  simp only [close, hunwind, bind, Except.bind]

/-- A closer drops the innermost opener, if it is of its own kind. -/
theorem close_of_enclosed (h : s.Holds ⟨f, os, x⟩) (hx : x.operand? = some e)
    (closed : f.enclosed e = some tree) (opener : EntryKind) (closer openMark : Mark) (pos : Nat) :
    (∃ o inner entries, os = o :: inner ∧ o.kind = opener ∧
      entries.map Entry.kind = o.outer.kinds ++ inner.flatMap Opening.kinds ∧
      s.close opener closer openMark pos =
        .ok { s with operators := entries, operands := tree :: os.flatMap Opening.operands }) ∨
    ((∀ o inner, os = o :: inner → o.kind ≠ opener) ∧
      ∃ fault, fault.ofText = true ∧
        s.close opener closer openMark pos = .error (.at fault pos)) := by
  cases os with
  | nil =>
    exact .inr ⟨nofun, .unopened closer openMark, rfl,
      close_of_unopened h hx closed opener closer openMark pos⟩
  | cons o inner =>
    obtain ⟨entries, hentries, hunwind⟩ := unwind_of_enclosed h hx closed
    obtain ⟨entry, entries, rfl, hkind, hentries⟩ := List.map_eq_cons_iff.mp hentries
    by_cases ho : o.kind = opener
    · refine .inl ⟨o, inner, entries, rfl, ho, hentries, ?_⟩
      simp only [close, hunwind, bind, Except.bind, if_pos (hkind.trans ho)]
      rfl
    · refine .inr ⟨fun o' inner' he => (List.cons.inj he).1 ▸ ho, .crossed closer
        (if entry.kind = .group then Mark.openGroup else Mark.openBracket) entry.pos, rfl, ?_⟩
      have hentry : ¬entry.kind = opener := fun he => ho (hkind.symm.trans he)
      simp only [close, hunwind, bind, Except.bind, if_neg hentry]

theorem onCloseGroup_follows (h : s.Holds ⟨f, os, x⟩) (pos : Nat) :
    Follows s pos (Reading.step ⟨f, os, x⟩ (.mark .closeGroup)) (s.onCloseGroup pos) := by
  refine follows_withOperand h rfl fun e hx => ?_
  cases closed : f.enclosed e with
  | none =>
    have hstep : Reading.onCloseGroup ⟨f, os, x⟩ e = none := by
      unfold Reading.onCloseGroup
      split <;> simp [closed]
    obtain ⟨error, herror, hrefuses⟩ := close_refuses h hx closed .group .closeGroup .openGroup pos
    rw [hstep, herror]
    exact .refuses hrefuses
  | some tree =>
    rcases close_of_enclosed h hx closed .group .closeGroup .openGroup pos with
      ⟨o, inner, entries, rfl, ho, hentries, hclose⟩ | ⟨hno, fault, hfault, hclose⟩
    · obtain ⟨outer, rfl⟩ : ∃ outer, o = .group outer := by cases o <;> simp_all [Opening.kind]
      have hstep : Reading.onCloseGroup ⟨f, .group outer :: inner, x⟩ e =
          some ⟨outer, inner, .compound tree⟩ := by
        simp [Reading.onCloseGroup, closed]
      rw [hstep, hclose]
      exact .reads ⟨rfl, hentries, rfl, rfl,
        by simp [h.groupDepth, List.countP_cons, Opening.isGroup],
        by simp [h.inBracket, Opening.isBracket],
        by simpa [List.countP_cons, Opening.isBracket] using h.unnested,
        by simp [h.waiting_eq_none hx, LastLexeme.isMark], by simp⟩
    · have hstep : Reading.onCloseGroup ⟨f, os, x⟩ e = none := by
        unfold Reading.onCloseGroup
        split
        next hos => exact (hno _ _ hos rfl).elim
        next => rfl
      rw [hstep, hclose]
      exact .refuses (.atToken s pos hfault)

theorem onCloseBracket_follows (h : s.Holds ⟨f, os, x⟩) (pos : Nat) :
    Follows s pos (Reading.step ⟨f, os, x⟩ (.mark .closeBracket)) (s.onCloseBracket pos) := by
  refine follows_withOperand h rfl fun e hx => ?_
  cases closed : f.enclosed e with
  | none =>
    have hstep : Reading.onCloseBracket ⟨f, os, x⟩ e = none := by
      unfold Reading.onCloseBracket
      split <;> simp [closed]
    obtain ⟨error, herror, hrefuses⟩ :=
      close_refuses h hx closed .bracket .closeBracket .openBracket pos
    rw [hstep, herror]
    exact .refuses hrefuses
  | some tree =>
    rcases close_of_enclosed h hx closed .bracket .closeBracket .openBracket pos with
      ⟨o, inner, entries, rfl, ho, hentries, hclose⟩ | ⟨hno, fault, hfault, hclose⟩
    · obtain ⟨outer, p, rfl⟩ : ∃ outer p, o = .bracket outer p := by
        cases o <;> simp_all [Opening.kind]
      -- No bracket is open around this one.
      have hnone : inner.countP Opening.isBracket = 0 := by
        simpa [List.countP_cons, Opening.isBracket] using h.unnested
      have hinside : inner.any Opening.isBracket = false := by
        simpa [List.countP_eq_zero] using hnone
      have hstep : Reading.onCloseBracket ⟨f, .bracket outer p :: inner, x⟩ e =
          some ⟨outer, inner, .compound (.node (.ofPattern p) tree)⟩ := by
        simp [Reading.onCloseBracket, closed]
      rw [hstep, hclose]
      exact .reads ⟨rfl, hentries, rfl, rfl, by simp [h.groupDepth, Opening.isGroup],
        hinside.symm, hnone ▸ Nat.zero_le 1,
        by simp [h.waiting_eq_none hx, LastLexeme.isMark], by simp⟩
    · have hstep : Reading.onCloseBracket ⟨f, os, x⟩ e = none := by
        unfold Reading.onCloseBracket
        split
        next hos => exact (hno _ _ hos rfl).elim
        next => rfl
      rw [hstep, hclose]
      exact .refuses (.atToken s pos hfault)

end Parsing

end PathFilter
