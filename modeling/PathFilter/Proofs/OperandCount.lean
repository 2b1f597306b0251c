import PathFilter.Proofs.Acceptance
import PathFilter.Proofs.FirstViolation
import PathFilter.Proofs.Tiling

namespace PathFilter

/-- Whether an operand lies on the stack below the one that an entry waits for. -/
def EntryKind.keepsOperand : EntryKind → Bool
  | .group => false
  | .not => false
  | _ => true

theorem Tight.countP_kinds (ts : List Tight) :
    (ts.map Tight.kind).countP EntryKind.keepsOperand = (ts.flatMap Tight.operands).length := by
  induction ts with
  | nil => rfl
  | cons t ts ih =>
    rw [List.map_cons, List.countP_cons, ih, List.flatMap_cons, List.length_append, Nat.add_comm]
    cases t <;> rfl

/-- Each entry of a frame keeps one operand, but for a separator that nothing precedes. -/
theorem Frame.countP_kinds (f : Frame) :
    f.kinds.countP EntryKind.keepsOperand = f.operands.length + f.leading.toNat := by
  simp only [kinds, operands, List.countP_append, List.length_append, Tight.countP_kinds,
    List.countP_replicate, separators, EntryKind.keepsOperand, ↓reduceIte]
  omega

theorem Opening.countP_kinds (o : Opening) :
    o.kinds.countP EntryKind.keepsOperand = o.operands.length + o.outer.leading.toNat := by
  cases o with
  | group outer => exact outer.countP_kinds
  | bracket outer p =>
    have houter := outer.countP_kinds
    simp only [kinds, kind, Opening.outer, operands, List.countP_cons, List.length_cons, houter,
      EntryKind.keepsOperand, ↓reduceIte]
    omega

theorem Opening.countP_flatMap_kinds (os : List Opening) :
    (os.flatMap kinds).countP EntryKind.keepsOperand =
      (os.flatMap operands).length + (os.map outer).countP Frame.leading := by
  induction os with
  | nil => rfl
  | cons o os ih =>
    rw [List.flatMap_cons, List.flatMap_cons, List.countP_append, List.length_append,
      List.map_cons, List.countP_cons, ih, o.countP_kinds]
    cases o.outer.leading <;> simp <;> omega

theorem Frame.leading_of_enclosed {f : Frame} {e tree : Expr} (closed : f.enclosed e = some tree) :
    f.leading = false := by
  obtain ⟨hseparators, -⟩ := Option.ite_none_right_eq_some.mp closed
  cases hleading : f.leading with
  | false => rfl
  | true => simp [separators, hleading] at hseparators

namespace Reading

variable {r r' : Reading} {y : Lexeme} {l : List Lexeme}

/-- The frames of a reading, the innermost first. -/
def frames (r : Reading) : List Frame := r.frame :: r.openings.map Opening.outer

/-- Only a separator that is read first stands before the segments of its frame. -/
theorem Steps.countP_leading (h : r.Steps y r') (hlast : r.last ≠ .start) :
    r'.frames.countP Frame.leading = r.frames.countP Frame.leading := by
  cases h with
  | closeGroup _ closed => simp [frames, Opening.outer, Frame.leading_of_enclosed closed]
  | closeBracket _ closed => simp [frames, Opening.outer, Frame.leading_of_enclosed closed]
  | openGroup => simp [frames, Opening.outer, Frame.empty]
  | openBracket => simp [frames, Opening.outer, Frame.empty]
  | leadingSeparator => contradiction
  | _ => rfl

theorem countP_leading_of_run (h : r.run l = some r') (hlast : r.last ≠ .start) :
    r'.frames.countP Frame.leading = r.frames.countP Frame.leading := by
  have hrun : r'.last ≠ .start ∧ r'.frames.countP Frame.leading = r.frames.countP Frame.leading :=
    run_induction (P := fun _ after =>
      after.last ≠ .start ∧ after.frames.countP Frame.leading = r.frames.countP Frame.leading)
      ⟨hlast, rfl⟩ (fun _ _ _ _ hbefore hsteps =>
        ⟨hsteps.last_ne_start, (hsteps.countP_leading hbefore.1).trans hbefore.2⟩) h
  exact hrun.2

theorem countP_leading_of_start (h : start.run l = some r) :
    r.frames.countP Frame.leading = if l.head? = some (.mark .separator) then 1 else 0 := by
  cases l with
  | nil =>
    obtain rfl := Option.some.inj h
    rfl
  | cons y l =>
    obtain ⟨next, hstep, hrun⟩ := Option.bind_eq_some_iff.mp h
    have hsteps := steps_of_step hstep
    rw [countP_leading_of_run hrun hsteps.last_ne_start]
    -- before an operand only these may be read
    generalize hstart : start = first at hsteps
    cases hsteps with
    | value | not | openGroup | leadingSeparator =>
      cases hstart
      rfl
    | _ => cases hstart <;> contradiction

end Reading

/-- A token leaves a separator at the start of the text if it is one and comes first. -/
theorem countP_separatorEntries {t : List Char} {front back : List Token}
    (h : (Lexing.ofFilter t).tokens = front ++ back) :
    (separatorEntries front).countP (·.pos == 0) =
      if (front.map Token.lexeme).head? = some (.mark .separator) then 1 else 0 := by
  cases front with
  | nil => rfl
  | cons token front =>
    have hzero : token.pos = 0 := Lexing.pos_eq_zero_of_head h
    have hincreasing := Lexing.increasing t
    rw [h, List.cons_append] at hincreasing
    -- positions increase, so what comes later does not stand at the start
    have hlater : (separatorEntries front).countP (·.pos == 0) = 0 := by
      refine List.countP_eq_zero.mpr fun entry hentry => ?_
      obtain ⟨later, hmem, -, hpos⟩ := exists_of_mem_separatorEntries hentry
      have hlt := (List.pairwise_cons.mp hincreasing).1 later (List.mem_append_left back hmem)
      simp only [beq_iff_eq]
      omega
    obtain ⟨y, pos⟩ := token
    obtain rfl : pos = 0 := hzero
    rw [separatorEntries_cons, List.countP_append, hlater]
    cases y with
    | value p => rfl
    | mark m => cases m <;> rfl

namespace Parsing

/-- The entries that keep an operand, by kind and by where they stand. -/
theorem countP_kinds (entries : List Entry) :
    (entries.map Entry.kind).countP EntryKind.keepsOperand =
      entries.countP (fun entry => entry.kind ∈ [.and, .or, .equals, .bracket]) +
        entries.countP (fun entry => entry.kind = .separator ∧ entry.pos ≠ 0) +
          (entries.filter Entry.isSeparator).countP (·.pos == 0) := by
  induction entries with
  | nil => rfl
  | cons entry entries ih =>
    obtain ⟨kind, pos⟩ := entry
    rw [List.map_cons, List.countP_cons, List.countP_cons, List.countP_cons, List.filter_cons, ih]
    cases kind with
    | group | not => simp [EntryKind.keepsOperand, Entry.isSeparator]
    | and | or | equals | bracket =>
      simp [EntryKind.keepsOperand, Entry.isSeparator]
      omega
    | separator =>
      by_cases hpos : pos = 0
      · simp [EntryKind.keepsOperand, Entry.isSeparator, hpos, Nat.add_assoc]
      · simp [EntryKind.keepsOperand, Entry.isSeparator, hpos]
        omega

theorem Reads.length_operands {s : Parsing} {r : Reading} (h : s.Reads r) :
    s.operands.length + r.frames.countP Frame.leading =
      (s.operators.map Entry.kind).countP EntryKind.keepsOperand + s.operatorAllowed.toNat := by
  rw [h.operands, h.operators, h.operatorAllowed, List.countP_append, r.frame.countP_kinds,
    Opening.countP_flatMap_kinds, Reading.frames, List.countP_cons, List.length_append,
    List.length_append]
  cases r.frame.leading <;> cases r.last.operand? <;> simp <;> omega

/-- Between two tokens the operands are those that entries keep, and the one that is complete. -/
theorem length_operands {t : List Char} {front back : List Token} {s : Parsing}
    (tokens : (Lexing.ofFilter t).tokens = front ++ back)
    (read : start.consumeAll t front = .ok s) :
    s.operands.length =
      s.operators.countP (fun entry => entry.kind ∈ [.and, .or, .equals, .bracket]) +
        s.operators.countP (fun entry => entry.kind = .separator ∧ entry.pos ≠ 0) +
          s.operatorAllowed.toNat := by
  obtain ⟨r, hrun, hreads⟩ := exists_reading_of_consumeAll reads_start read
  have hlength := hreads.length_operands
  rw [countP_kinds, separators_of_start read, List.countP_reverse, countP_separatorEntries tokens,
    Reading.countP_leading_of_start hrun] at hlength
  omega

end Parsing

theorem ofText_of_readSegments {t : List Char} {e : SyntaxError}
    (h : readSegments t = .error e) : e.fault.ofText = true := by
  have hreads := readsText t
  rw [h] at hreads
  cases hreads with
  | refused _ _ hrefuses => exact hrefuses.fault
  | dangling => rfl
  | @finished _ r _ _ _ _ ends =>
    generalize r.finish = result at ends
    cases ends with
    | unfinished hunfinished =>
      cases hunfinished with
      | entry _ hfault => exact hfault
      | waiting _ => rfl
      | empty => rfl

/-- How messages begin that would tell of a fault of the stacks, or of a lexeme of no kind. -/
def neverReported : List String :=
  ["Missing operand", "A property filter must follow a plain node value", "Unexpected token"]

theorem toList_prefix_append (a b : String) : a.toList <+: (a ++ b).toList := by
  rw [String.toList_append]
  exact List.prefix_append _ _

/-- The message of a fault in the text parts from them before it comes to what it quotes. -/
theorem SyntaxFault.exists_lead {fault : SyntaxFault} (h : fault.ofText = true) :
    ∃ lead : String, lead.toList <+: fault.message.toList ∧
      ∀ text ∈ neverReported, ¬text.toList <+: lead.toList ∧ ¬lead.toList <+: text.toList := by
  cases fault with
  | valueAfterOperand rest =>
    refine ⟨"Unexpected value '", ?_, by decide⟩
    exact (toList_prefix_append _ _).trans (toList_prefix_append _ _)
  | connectiveWithoutOperand m =>
    refine ⟨"Unexpected operator ", ?_, by decide⟩
    exact (toList_prefix_append _ _).trans (toList_prefix_append _ _)
  | separatorAfterMark m =>
    exact ⟨"Expected an operand after ", toList_prefix_append _ _, by decide⟩
  | closerWithoutOperand m => cases m <;> exact ⟨_, List.prefix_rfl, by decide⟩
  | unopened closer opener =>
    refine ⟨"Unbalanced ", ?_, by decide⟩
    have hcloser := toList_prefix_append "Unbalanced " closer.quoted
    exact (hcloser.trans (toList_prefix_append _ _)).trans (toList_prefix_append _ _)
  | crossed closer opener pos =>
    refine ⟨"Unbalanced ", ?_, by decide⟩
    have hcloser := toList_prefix_append "Unbalanced " closer.quoted
    have hopener := (hcloser.trans (toList_prefix_append _ ": ")).trans
      (toList_prefix_append _ opener.quoted)
    exact ((hopener.trans (toList_prefix_append _ _)).trans (toList_prefix_append _ _)).trans
      (toList_prefix_append _ _)
  | endAfterMark m =>
    exact ⟨"Unexpected end of filter, expected an operand after ", toList_prefix_append _ _,
      by decide⟩
  | missingOperand => contradiction
  | bracketAfterCompound => contradiction
  | _ => exact ⟨_, List.prefix_rfl, by decide⟩

theorem prefix_withPosition (message : String) (pos : Option Int) :
    message.toList <+: (withPosition message pos).toList := by
  cases pos with
  | none => exact List.prefix_rfl
  | some pos =>
    exact ((toList_prefix_append _ _).trans (toList_prefix_append _ _)).trans
      (toList_prefix_append _ _)

theorem SyntaxError.message_of_ofText {e : SyntaxError} (h : e.fault.ofText = true) :
    ∀ text ∈ neverReported, ¬text.toList <+: e.message.toList := by
  intro text htext hprefix
  obtain ⟨lead, hlead, hdiffers⟩ := SyntaxFault.exists_lead h
  obtain ⟨hleft, hright⟩ := hdiffers text htext
  have hmessage := hlead.trans (prefix_withPosition _ (e.pos.map Int.ofNat))
  rcases List.prefix_or_prefix_of_prefix hprefix hmessage with h | h
  · exact hleft h
  · exact hright h

/-- An expression that breaks no rule, unless it is a value. -/
def Site.SoundOrValue (s : Site) : Prop := s.Sound ∨ ∃ m, s.expr = .value m

theorem sites_chain {lastSegment : Bool} {place : Place} {op : Operator} (hop : op ≠ .not)
    {es : List Expr} (nonempty : es ≠ [])
    (each : ∀ e ∈ es, ∀ s ∈ sites lastSegment place e, s.SoundOrValue) :
    ∀ s ∈ sites lastSegment place (.chain op es), s.SoundOrValue := by
  match es with
  | [] => contradiction
  | [e] => exact each e (by simp)
  | e :: e' :: es =>
    rw [Expr.chain_of_two_le (by simp), sites, operandSites_eq_flatMap]
    refine List.forall_mem_cons.mpr ⟨.inl ?_, fun s hs => ?_⟩
    · exact Site.sound_apply_iff.mpr (by cases op <;> simp_all [Operator.admits])
    · obtain ⟨part, hpart, hs⟩ := List.mem_flatMap.mp hs
      exact each part hpart s hs

/-- In the tree of a text only values can break a rule. -/
theorem Derives.soundOrValue {place : Place} {level : Level} {l : List Lexeme} {e : Expr}
    (h : Derives place level l e) (lastSegment : Bool) :
    ∀ s ∈ sites lastSegment place e, s.SoundOrValue := by
  induction h with
  | or nonempty _ ih =>
    refine sites_chain (by decide) (mt List.map_eq_nil_iff.mp nonempty) fun e he => ?_
    obtain ⟨part, hpart, rfl⟩ := List.mem_map.mp he
    exact ih part hpart
  | and nonempty _ ih =>
    refine sites_chain (by decide) (mt List.map_eq_nil_iff.mp nonempty) fun e he => ?_
    obtain ⟨part, hpart, rfl⟩ := List.mem_map.mp he
    exact ih part hpart
  | not _ ih =>
    refine List.forall_mem_cons.mpr ⟨.inl rfl, ?_⟩
    simpa [operandSites] using ih
  | group _ ih => exact ih
  | value p => exact List.forall_mem_singleton.mpr (.inr ⟨_, rfl⟩)
  | node p _ ih =>
    exact List.forall_mem_cons.mpr ⟨.inl rfl, List.forall_mem_cons.mpr ⟨.inr ⟨_, rfl⟩, ih⟩⟩
  | presence key => exact List.forall_mem_singleton.mpr (.inr ⟨_, rfl⟩)
  | property key value => exact List.forall_mem_singleton.mpr (.inl rfl)

theorem DerivesFilter.each {l : List Lexeme} {segments : List Expr} (h : DerivesFilter l segments) :
    ∀ e ∈ segments, ∃ part, Derives .segment .or part e := by
  obtain ⟨leading, trailing, nonempty, each⟩ := h
  intro e he
  obtain ⟨part, hpart, rfl⟩ := List.mem_map.mp he
  exact ⟨part.1, each part hpart⟩

theorem segmentSites_soundOrValue {segments : List Expr}
    (each : ∀ e ∈ segments, ∃ part, Derives .segment .or part e) :
    ∀ s ∈ segmentSites segments, s.SoundOrValue := by
  induction segments with
  | nil => exact nofun
  | cons e es ih =>
    obtain ⟨⟨part, head⟩, tail⟩ := List.forall_mem_cons.mp each
    exact List.forall_mem_append.mpr ⟨head.soundOrValue es.isEmpty, ih tail⟩

theorem Site.violation_of_value {s : Site} {m : Mask} (hs : s.expr = .value m)
    {error : ValidationError} (h : s.check = .error error) :
    error.violation = .separatorInValue ∨ error.violation = .misplacedEverythingBelow := by
  obtain ⟨lastSegment, place, e⟩ := s
  obtain rfl : e = .value m := hs
  cases place with
  | bracket => contradiction
  | segment =>
    simp only [check, validateSegmentValue] at h
    split at h
    · cases h
      exact .inl rfl
    · split at h
      · cases h
        exact .inr rfl
      · contradiction

theorem violation_of_readSegments {t : List Char} {segments : List Expr}
    (read : readSegments t = .ok segments) {error : ValidationError}
    (h : validateSegments segments = .error error) :
    error.violation = .separatorInValue ∨ error.violation = .misplacedEverythingBelow := by
  obtain ⟨-, hderives⟩ := derives_of_readSegments read
  rw [validateSegments_eq_checkSites] at h
  obtain ⟨before, s, after, hsites, -, hs⟩ := exists_of_checkSites h
  have hmem : s ∈ segmentSites segments := hsites ▸ List.mem_append_right before List.mem_cons_self
  rcases segmentSites_soundOrValue hderives.each s hmem with sound | ⟨m, hm⟩
  · rw [s.check_eq_ok_iff.mpr sound] at hs
    contradiction
  · exact s.violation_of_value hm hs

/-- While a text is read, each operand is kept by an entry or complete. So no error tells of a
missing operand, of a bracket after anything but a value or of an unknown token, and what is read
to its end can only be refused for a value with a separator or a `**` before the last segment. -/
theorem parseFilter_operandsKept (f : String) :
    (∀ front back s, (Lexing.ofFilter f.toList).tokens = front ++ back →
      Parsing.start.consumeAll f.toList front = .ok s →
      s.operands.length =
        s.operators.countP (fun entry => entry.kind ∈ [.and, .or, .equals, .bracket]) +
          s.operators.countP (fun entry => entry.kind = .separator ∧ entry.pos ≠ 0) +
            s.operatorAllowed.toNat) ∧
    (∀ e, parseFilter f = .error (.malformedFilter e) →
      ∀ text ∈ ["Missing operand", "A property filter must follow a plain node value",
        "Unexpected token"], ¬text.toList <+: e.message.toList) ∧
    (∀ e, parseFilter f = .error (.invalidFilter e) →
      e.violation = .separatorInValue ∨ e.violation = .misplacedEverythingBelow) := by
  refine ⟨fun front back s tokens read => Parsing.length_operands tokens read, ?_, ?_⟩
  · intro e h
    have hread := parseFilter_eq_malformed_iff.mp h
    exact SyntaxError.message_of_ofText (ofText_of_readSegments hread)
  · intro e h
    obtain ⟨segments, hread, hvalid⟩ := parseFilter_eq_invalid_iff.mp h
    exact violation_of_readSegments hread hvalid

theorem parseFilter_operandsKept_bracket :
    (∃ front s, (Lexing.ofFilter "/A/B[k=x".toList).tokens = front ++ [] ∧
      Parsing.start.consumeAll "/A/B[k=x".toList front = .ok s ∧
      (s.operands.length =
        s.operators.countP (fun entry => entry.kind ∈ [.and, .or, .equals, .bracket]) +
          s.operators.countP (fun entry => entry.kind = .separator ∧ entry.pos ≠ 0) +
            s.operatorAllowed.toNat) ∧ s.operands.length = 4) ∧
    (∃ e, parseFilter "A/(B" = .error (.malformedFilter e) ∧
      ∀ text ∈ ["Missing operand", "A property filter must follow a plain node value",
        "Unexpected token"], ¬text.toList <+: e.message.toList) ∧
    (∃ e, parseFilter "**/A" = .error (.invalidFilter e) ∧
      (e.violation = .separatorInValue ∨ e.violation = .misplacedEverythingBelow)) := by
  have tokens : (Lexing.ofFilter "/A/B[k=x".toList).tokens =
      [⟨.mark .separator, 0⟩, ⟨.value [.literal 'A'], 1⟩, ⟨.mark .separator, 2⟩,
        ⟨.value [.literal 'B'], 3⟩, ⟨.mark .openBracket, 4⟩, ⟨.value [.literal 'k'], 5⟩,
        ⟨.mark .equals, 6⟩, ⟨.value [.literal 'x'], 7⟩] ++ [] := by cbv
  have malformed : parseFilter "A/(B" = .error (.malformedFilter (.at .unclosedGroup 2)) := by cbv
  have invalid : parseFilter "**/A" =
      .error (.invalidFilter ⟨.misplacedEverythingBelow, .value .everythingBelow⟩) := by cbv
  refine ⟨⟨_, _, tokens, rfl, (parseFilter_operandsKept "/A/B[k=x").1 _ _ _ tokens rfl, rfl⟩,
    ⟨_, malformed, ?_⟩, ⟨_, invalid, ?_⟩⟩
  · exact (parseFilter_operandsKept "A/(B").2.1 _ malformed
  · exact (parseFilter_operandsKept "**/A").2.2 _ invalid

end PathFilter
