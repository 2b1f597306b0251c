import PathFilter.Proofs.ScanDepth
import PathFilter.Proofs.StrayCloser

namespace PathFilter

/-- Whether the parser waits for an operand after a mark. A separator may end a filter. -/
def Mark.waits : Mark → Bool
  | .separator => false
  | .closeGroup => false
  | .closeBracket => false
  | _ => true

namespace Lexeme

def isValue : Lexeme → Bool
  | .value _ => true
  | .mark _ => false

def waits : Lexeme → Bool
  | .value _ => false
  | .mark m => m.waits

end Lexeme

/-- What the parser waits behind when a token was the last. -/
def Token.waiting? (token : Token) : Option (Mark × Nat) :=
  match token.lexeme with
  | .value _ => none
  | .mark m => if m.waits then some (m, token.pos) else none

theorem Token.isSome_waiting? (token : Token) : token.waiting?.isSome = token.lexeme.waits := by
  obtain ⟨y, pos⟩ := token
  cases y with
  | value p => rfl
  | mark m => cases m <;> rfl

namespace Reading

variable {r r' : Reading} {y : Lexeme} {l : List Lexeme}

theorem Steps.isValue_last (h : r.Steps y r') : r'.last.isValue = y.isValue := by
  cases h <;> rfl

theorem Steps.isMark_last (h : r.Steps y r') : r'.last.isMark = y.waits := by
  cases h <;> rfl

theorem last_of_run (h : start.run l = some r) :
    r.last.operand?.isSome = l.getLast?.any Lexeme.endsOperand ∧
      r.last.isValue = l.getLast?.any Lexeme.isValue ∧
      r.last.isMark = l.getLast?.any Lexeme.waits := by
  refine run_induction (P := fun l r => r.last.operand?.isSome = l.getLast?.any Lexeme.endsOperand ∧
    r.last.isValue = l.getLast?.any Lexeme.isValue ∧
    r.last.isMark = l.getLast?.any Lexeme.waits) ⟨rfl, rfl, rfl⟩ (fun l y _ _ _ hsteps => ?_) h
  rw [hsteps.operand?_isSome, hsteps.isValue_last, hsteps.isMark_last, List.getLast?_concat]
  exact ⟨rfl, rfl, rfl⟩

theorem Steps.countP_isBracket (h : r.Steps y r') :
    (r'.openings.countP Opening.isBracket : Int) =
      r.openings.countP Opening.isBracket + opened [y] := by
  cases h with
  | closeBracket =>
    rw [List.countP_cons_of_pos rfl, opened_mark, opened_nil]
    simp only [Mark.opens]
    omega
  | _ => simp [List.countP_cons, Opening.isBracket, Mark.opens]

/-- The brackets that a text has opened are those of which the reading is inside. -/
theorem opened_of_run (h : start.run l = some r) :
    opened l = r.openings.countP Opening.isBracket := by
  refine run_induction (P := fun l r => opened l = r.openings.countP Opening.isBracket) rfl
    (fun l y before after hbefore hsteps => ?_) h
  rw [opened_append, hbefore, hsteps.countP_isBracket]

end Reading

/-- A frame opens nothing. -/
theorem Frame.filter_kinds (f : Frame) : f.kinds.filter EntryKind.isOpener = [] := by
  refine List.filter_eq_nil_iff.mpr fun k hk => ?_
  simp only [kinds, List.mem_append, List.mem_map, List.mem_replicate] at hk
  rcases hk with ⟨t, -, rfl⟩ | ⟨-, rfl⟩ | ⟨-, rfl⟩ | ⟨-, rfl⟩
  · cases t <;> exact Bool.false_ne_true
  · exact Bool.false_ne_true
  · exact Bool.false_ne_true
  · exact Bool.false_ne_true

namespace Opening

theorem filter_kinds (os : List Opening) :
    (os.flatMap kinds).filter EntryKind.isOpener = os.map kind := by
  induction os with
  | nil => rfl
  | cons o os ih =>
    rw [List.flatMap_cons, kinds, List.filter_append, List.filter_cons_of_pos o.isOpener_kind,
      o.outer.filter_kinds, ih, List.map_cons]
    rfl

theorem isGroup_eq (o : Opening) : o.isGroup = (o.kind == .group) := by
  cases o <;> rfl

theorem isBracket_eq (o : Opening) : o.isBracket = (o.kind == .bracket) := by
  cases o <;> rfl

end Opening

namespace Parsing

variable {s s' : Parsing} {r : Reading} {filter : List Char} {front back : List Token}
variable {token : Token} {pos : Nat} {l : List Lexeme}

/-- The openers on the stack are those of the reading. -/
theorem Holds.count_opener (h : s.Holds r) {k : EntryKind} (hk : k.isOpener = true) :
    (s.operators.map Entry.kind).count k = r.openings.countP fun o => o.kind == k := by
  rw [← List.count_filter hk, h.operators, List.filter_append, r.frame.filter_kinds,
    Opening.filter_kinds, List.nil_append, List.count_eq_countP, List.countP_map]
  rfl

theorem Holds.count_group (h : s.Holds r) :
    (s.operators.map Entry.kind).count .group = r.openings.countP Opening.isGroup := by
  rw [h.count_opener rfl]
  exact List.countP_congr fun o _ => by rw [o.isGroup_eq]

theorem Holds.count_bracket (h : s.Holds r) :
    (s.operators.map Entry.kind).count .bracket = r.openings.countP Opening.isBracket := by
  rw [h.count_opener rfl]
  exact List.countP_congr fun o _ => by rw [o.isBracket_eq]

theorem Holds.inBracket_iff (h : s.Holds r) :
    s.inBracket = true ↔ 0 < r.openings.countP Opening.isBracket := by
  rw [h.inBracket, List.any_eq_true, List.countP_pos_iff]

theorem Holds.mem_bracket_iff (h : s.Holds r) :
    .bracket ∈ s.operators.map Entry.kind ↔ s.inBracket = true := by
  have hcount : (s.operators.map Entry.kind).count .bracket = r.openings.countP Opening.isBracket :=
    h.count_bracket
  rw [← List.count_pos_iff, hcount, h.inBracket_iff]

/-- A parser is inside one bracket or none, as many as the tokens have left open. -/
theorem Reads.opened_eq (h : s.Reads r) (hrun : Reading.start.run l = some r) :
    opened l = if s.inBracket then 1 else 0 := by
  have hopened := Reading.opened_of_run hrun
  have hone := h.unnested
  by_cases inside : s.inBracket = true
  · have hpos := h.inBracket_iff.mp inside
    rw [if_pos inside]
    omega
  · have hzero := mt h.inBracket_iff.mpr inside
    rw [if_neg inside]
    omega

theorem onConnective_waiting {m : Mark} {kind : EntryKind}
    (h : s.onConnective m kind pos = .ok s') : s'.waiting = some (m, pos) := by
  obtain ⟨-, h⟩ := ite_ok_eq_ok_iff.mp h
  obtain ⟨pushed, -, h⟩ := bind_eq_ok_iff.mp h
  obtain rfl := Except.ok.inj h
  rfl

/-- A mark after which an operand must follow is the one that the parser waits behind. -/
theorem onLexeme_waiting {m : Mark} (hm : m.waits = true)
    (h : s.onLexeme filter pos (.mark m) = .ok s') : s'.waiting = some (m, pos) := by
  cases m with
  | and => exact onConnective_waiting h
  | or => exact onConnective_waiting h
  | not | openGroup =>
    obtain ⟨-, h⟩ := ite_error_eq_ok_iff.mp h
    obtain rfl := Except.ok.inj h
    rfl
  | openBracket =>
    obtain ⟨-, h⟩ := ite_ok_eq_ok_iff.mp h
    obtain rfl := Except.ok.inj h
    rfl
  | equals =>
    obtain ⟨-, h⟩ := ite_error_eq_ok_iff.mp h
    obtain ⟨-, h⟩ := ite_error_eq_ok_iff.mp h
    obtain rfl := Except.ok.inj h
    rfl
  | _ => cases hm

theorem consume_waiting (h : s.consume filter token = .ok s')
    (hwaits : s'.waiting.isSome = token.lexeme.waits) : s'.waiting = token.waiting? := by
  have hsome := token.isSome_waiting?
  cases hwait : token.lexeme.waits with
  | false =>
    rw [hwait] at hwaits hsome
    rw [Option.isSome_eq_false_iff, Option.isNone_iff_eq_none] at hwaits hsome
    rw [hwaits, hsome]
  | true =>
    obtain ⟨read, hread, h⟩ := bind_eq_ok_iff.mp h
    obtain rfl := Except.ok.inj h
    obtain ⟨y, pos⟩ := token
    cases y with
    | value p => cases hwait
    | mark m =>
      have hm : m.waits = true := hwait
      exact (onLexeme_waiting hm hread).trans (if_pos hm).symm

/-- The parser waits behind the last token or behind none. -/
theorem Reads.waiting_eq (h : s.Reads r) (hrun : Reading.start.run (front.map Token.lexeme) = some r)
    (read : start.consumeAll filter front = .ok s) :
    s.waiting = front.getLast?.bind Token.waiting? := by
  rcases List.eq_nil_or_concat' front with rfl | ⟨before, token, rfl⟩
  · obtain rfl := Except.ok.inj read
    rfl
  · obtain ⟨-, -, hmark⟩ := Reading.last_of_run hrun
    have hwaits : s.waiting.isSome = token.lexeme.waits := by
      rw [h.waiting, hmark]
      simp
    rw [consumeAll_append] at read
    obtain ⟨middle, -, read⟩ := bind_eq_ok_iff.mp read
    obtain ⟨last, hlast, read⟩ := bind_eq_ok_iff.mp read
    obtain rfl := Except.ok.inj read
    simpa using consume_waiting hlast hwaits

/-- Where a separator may stand nothing is open: no group, which the parser refuses, and no bracket,
where the separator would be no token. -/
theorem openings_of_separator {stop : Nat} {r' : Reading}
    (tokens : (Lexing.ofFilter filter).tokens = front ++ ⟨.mark .separator, stop⟩ :: back)
    (hrun : Reading.start.run (front.map Token.lexeme) = some r)
    (hstep : r.step (.mark .separator) = some r') : r'.openings = [] := by
  have hbracket : r.openings.countP Opening.isBracket = 0 := by
    have hle := Lexing.opened_of_separator tokens
    have hopened := Reading.opened_of_run hrun
    omega
  obtain ⟨hgroup, -⟩ := Option.ite_none_left_eq_some.mp hstep
  have hnil : r.openings = [] := by
    cases hos : r.openings with
    | nil => rfl
    | cons o os =>
      rw [hos, List.countP_cons] at hbracket
      cases o with
      | group outer => simp [Reading.inGroup, hos, Opening.isGroup] at hgroup
      | bracket outer p => simp [Opening.isBracket] at hbracket
  cases Reading.steps_of_step hstep with
  | separator => exact hnil
  | leadingSeparator => exact hnil

/-- Behind a separator the stack holds separators only. -/
theorem Reads.separated_operators (h : s.Reads r) (hlast : r.last = .separator)
    (hos : r.openings = []) : ∀ entry ∈ s.operators, entry.kind = .separator := by
  have hframe : r.frame.kinds = List.replicate r.frame.separators .separator := by
    have hseparated := h.separated hlast
    rw [hseparated]
    rfl
  have hkinds := h.operators
  rw [hos, hframe, List.flatMap_nil, List.append_nil] at hkinds
  intro entry hentry
  have hkind : entry.kind ∈ s.operators.map Entry.kind := List.mem_map_of_mem hentry
  rw [hkinds] at hkind
  exact List.eq_of_mem_replicate hkind

/-- What holds between two tokens, when the parser has read those that the scan has handed over. -/
structure InStep (filter : List Char) (handed later : List Handover) (s : Parsing) : Prop where
  tokens : (Lexing.ofFilter filter).tokens = (handed ++ later).map Handover.token
  /-- The scan counts a mark that ends a value before it hands the value over, the parser behind
  it. -/
  counter : Handover.counted handed = (if s.inBracket then 1 else 0) + Handover.ahead handed later
  inBracket : s.inBracket = true ↔ .bracket ∈ s.operators.map Entry.kind
  unnested : (s.operators.map Entry.kind).count .bracket ≤ 1
  groupDepth : s.groupDepth = (s.operators.map Entry.kind).count .group
  operatorAllowed : s.operatorAllowed = (Handover.lexemes handed).getLast?.any Lexeme.endsOperand
  bracketAllowed : s.bracketAllowed = (Handover.lexemes handed).getLast?.any Lexeme.isValue
  waiting : s.waiting = (handed.map Handover.token).getLast?.bind Token.waiting?
  separated : (Handover.lexemes handed).getLast? = some (.mark .separator) →
    ∀ entry ∈ s.operators, entry.kind = .separator

theorem separators_of_last (tokens : (Lexing.ofFilter filter).tokens = front ++ back)
    (h : s.Reads r) (hrun : Reading.start.run (front.map Token.lexeme) = some r)
    (hlast : (front.map Token.lexeme).getLast? = some (.mark .separator)) :
    ∀ entry ∈ s.operators, entry.kind = .separator := by
  rcases List.eq_nil_or_concat' front with rfl | ⟨before, ⟨y, stop⟩, rfl⟩
  · cases hlast
  obtain rfl : y = .mark .separator := by simpa using hlast
  rw [List.append_assoc, List.singleton_append] at tokens
  rw [List.map_append, Reading.run_append] at hrun
  obtain ⟨earlier, hearlier, hrun⟩ := Option.bind_eq_some_iff.mp hrun
  obtain ⟨next, hstep, hrun⟩ := Option.bind_eq_some_iff.mp hrun
  obtain rfl := Option.some.inj hrun
  have hos := openings_of_separator tokens hearlier hstep
  refine h.separated_operators ?_ hos
  cases Reading.steps_of_step hstep with
  | separator => rfl
  | leadingSeparator => rfl

/-- The scan and the parser agree between any two tokens that the parser accepts, but for a bracket
that ends a value. The depth of the scan, which nothing checks, is otherwise one inside a bracket
and zero outside, so that a separator is a token only where no bracket is on the stack. -/
theorem inStep_of_consumeAll {handed later : List Handover}
    (hand : Handover.ofFilter filter = handed ++ later)
    (read : start.consumeAll filter (handed.map Handover.token) = .ok s) :
    InStep filter handed later s := by
  have htokens : (Lexing.ofFilter filter).tokens = (handed ++ later).map Handover.token := by
    rw [← hand]
    exact (Handover.tokens_scan filter 0 0 .none).symm
  have hsplit := htokens.trans List.map_append
  have hlexemes : (handed.map Handover.token).map Token.lexeme = Handover.lexemes handed :=
    List.map_map
  obtain ⟨r, hrun, h⟩ := exists_reading_of_consumeAll reads_start read
  have hwaiting := h.waiting_eq hrun read
  have hseparated := separators_of_last hsplit h hrun
  rw [hlexemes] at hrun hseparated
  obtain ⟨hoperand, hvalue, -⟩ := Reading.last_of_run hrun
  have hcounts : Handover.Counts 0 handed later := Handover.counts_scan filter 0 0 .none hand
  have hopened := h.opened_eq hrun
  exact
    { tokens := htokens
      counter := by
        rw [← hopened, ← Int.zero_add (opened _)]
        exact hcounts
      inBracket := h.mem_bracket_iff.symm
      unnested := h.count_bracket ▸ h.unnested
      groupDepth := h.count_group ▸ h.groupDepth
      operatorAllowed := h.operatorAllowed.trans hoperand
      bracketAllowed := h.bracketAllowed.trans hvalue
      waiting := hwaiting
      separated := hseparated }

theorem inStep_of_consumeAll_bracket :
    ∃ handed s, Handover.ofFilter "/A&!B[(k=x/y".toList = handed ++ [] ∧
      start.consumeAll "/A&!B[(k=x/y".toList (handed.map Handover.token) = .ok s ∧
      InStep "/A&!B[(k=x/y".toList handed [] s ∧ s.inBracket = true ∧
      s.operators.map Entry.kind = [.equals, .group, .bracket, .not, .and, .separator] := by
  have hand : Handover.ofFilter "/A&!B[(k=x/y".toList =
      [⟨⟨.mark .separator, 0⟩, 0⟩, ⟨⟨.value [.literal 'A'], 1⟩, 0⟩, ⟨⟨.mark .and, 2⟩, 0⟩,
        ⟨⟨.mark .not, 3⟩, 0⟩, ⟨⟨.value [.literal 'B'], 4⟩, 1⟩, ⟨⟨.mark .openBracket, 5⟩, 1⟩,
        ⟨⟨.mark .openGroup, 6⟩, 1⟩, ⟨⟨.value [.literal 'k'], 7⟩, 1⟩, ⟨⟨.mark .equals, 8⟩, 1⟩,
        ⟨⟨.value [.literal 'x', .literal '/', .literal 'y'], 9⟩, 1⟩] ++ [] := by cbv
  exact ⟨_, _, hand, rfl, inStep_of_consumeAll hand rfl, rfl, rfl⟩

/-- Behind the first token of `A[k]` the scan has counted the bracket and the parser has not. -/
theorem counter_ahead : ¬ ∀ filter handed later s, Handover.ofFilter filter = handed ++ later →
    start.consumeAll filter (handed.map Handover.token) = .ok s →
    Handover.counted handed = if s.inBracket then 1 else 0 := by
  intro agree
  have hand : Handover.ofFilter "A[k]".toList =
      [⟨⟨.value [.literal 'A'], 0⟩, 1⟩] ++
        [⟨⟨.mark .openBracket, 1⟩, 1⟩, ⟨⟨.value [.literal 'k'], 2⟩, 0⟩,
          ⟨⟨.mark .closeBracket, 3⟩, 0⟩] := by cbv
  have hone := agree _ _ _ _ hand rfl
  cases hone

end Parsing

end PathFilter
