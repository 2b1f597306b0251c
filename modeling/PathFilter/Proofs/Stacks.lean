import PathFilter.Proofs.StackEntries
import PathFilter.Proofs.StackLoops

namespace PathFilter

/-- The kinds of the entries that a frame keeps on the operator stack, from the top. -/
def Frame.kinds (f : Frame) : List EntryKind :=
  f.tights.map Tight.kind ++ (List.replicate f.factors.length .and ++
    (List.replicate f.alternatives.length .or ++ List.replicate f.separators .separator))

/-- The operands that a frame keeps on the stack, from the top. -/
def Frame.operands (f : Frame) : List Expr :=
  f.tights.flatMap Tight.operands ++ (f.factors ++ (f.alternatives ++ f.segments))

namespace Frame

@[simp] theorem kinds_empty : empty.kinds = [] := rfl

@[simp] theorem operands_empty : empty.operands = [] := rfl

@[simp] theorem kinds_addTight (f : Frame) (t : Tight) : (f.addTight t).kinds = t.kind :: f.kinds :=
  rfl

@[simp] theorem operands_addTight (f : Frame) (t : Tight) :
    (f.addTight t).operands = t.operands ++ f.operands := by
  simp [operands, addTight]

@[simp] theorem kinds_addFactor (f : Frame) (e : Expr) :
    (f.addFactor e).kinds = .and :: (List.replicate f.factors.length .and ++
      (List.replicate f.alternatives.length .or ++ List.replicate f.separators .separator)) := rfl

@[simp] theorem operands_addFactor (f : Frame) (e : Expr) :
    (f.addFactor e).operands = e :: (f.factors ++ (f.alternatives ++ f.segments)) := rfl

@[simp] theorem kinds_addAlternative (f : Frame) (e : Expr) :
    (f.addAlternative e).kinds = .or :: (List.replicate f.alternatives.length .or ++
      List.replicate f.separators .separator) := rfl

@[simp] theorem operands_addAlternative (f : Frame) (e : Expr) :
    (f.addAlternative e).operands = e :: (f.alternatives ++ f.segments) := rfl

@[simp] theorem kinds_addSegment (f : Frame) (e : Expr) :
    (f.addSegment e).kinds = .separator :: List.replicate f.separators .separator := by
  simp [kinds, addSegment, separators, Nat.add_right_comm, List.replicate_succ]

@[simp] theorem operands_addSegment (f : Frame) (e : Expr) :
    (f.addSegment e).operands = e :: f.segments := rfl

end Frame

namespace Opening

def kind : Opening → EntryKind
  | .group _ => .group
  | .bracket _ _ => .bracket

def outer : Opening → Frame
  | .group outer => outer
  | .bracket outer _ => outer

def kinds (o : Opening) : List EntryKind := o.kind :: o.outer.kinds

/-- A bracket leaves the value before it on the stack. -/
def operands : Opening → List Expr
  | .group outer => outer.operands
  | .bracket outer p => .value (.ofPattern p) :: outer.operands

theorem isOpener_kind (o : Opening) : o.kind.isOpener = true := by
  cases o <;> rfl

theorem isOpener_of_head? {os : List Opening} {k : EntryKind}
    (h : (os.flatMap kinds).head? = some k) : k.isOpener = true := by
  cases os with
  | nil => cases h
  | cons o os =>
    obtain rfl := Option.some.inj h
    exact o.isOpener_kind

end Opening

namespace LastLexeme

def isMark : LastLexeme → Bool
  | .mark => true
  | _ => false

def isValue : LastLexeme → Bool
  | .value _ => true
  | _ => false

end LastLexeme

/-- The stacks and flags of a parser that has come to a reading. -/
structure Parsing.Holds (s : Parsing) (r : Reading) : Prop where
  operands : s.operands = r.last.operand?.toList ++
    (r.frame.operands ++ r.openings.flatMap Opening.operands)
  operators : s.operators.map Entry.kind = r.frame.kinds ++ r.openings.flatMap Opening.kinds
  operatorAllowed : s.operatorAllowed = r.last.operand?.isSome
  bracketAllowed : s.bracketAllowed = r.last.isValue
  groupDepth : s.groupDepth = r.openings.countP Opening.isGroup
  inBracket : s.inBracket = r.openings.any Opening.isBracket
  unnested : r.openings.countP Opening.isBracket ≤ 1
  waiting : s.waiting.isSome = r.last.isMark
  start : r.last = .start → r = .start

namespace Parsing

/-- An error points at the token that was read or at an operator on the stack. -/
structure Refuses (s : Parsing) (pos : Nat) (e : SyntaxError) : Prop where
  position : e.pos = some pos ∨ ∃ entry ∈ s.operators, e.pos = some entry.pos
  fault : e.fault.ofText = true

theorem Refuses.atToken (s : Parsing) (pos : Nat) {fault : SyntaxFault}
    (h : fault.ofText = true) :
    s.Refuses pos (.at fault pos) := ⟨.inl rfl, h⟩

/-- The parser goes on as the reading does, or refuses the token with it. -/
inductive Follows (s : Parsing) (pos : Nat) : Option Reading → Except SyntaxError Parsing → Prop
  | reads {r : Reading} {s' : Parsing} (h : s'.Holds r) : Follows s pos (some r) (.ok s')
  | refuses {e : SyntaxError} (h : s.Refuses pos e) : Follows s pos none (.error e)

theorem holds_start : start.Holds .start :=
  ⟨rfl, rfl, rfl, rfl, rfl, rfl, Nat.zero_le 1, rfl, fun _ => rfl⟩

/-- The entries that an operator of some kind applies before it is pushed. -/
def tighterThan (kind top : EntryKind) : Bool := !top.isOpener && kind.strength < top.strength

theorem applies_unwind (applies : EntryKind → Bool) {kind : EntryKind} (h : applies kind = true) :
    Applies (unwind applies) kind := by
  intro budget entry entries operands hkind
  rw [unwind, if_pos (hkind ▸ h)]
  rfl

theorem unwind_stop {applies : EntryKind → Bool} {entries : List Entry}
    (h : ∀ k, (entries.map Entry.kind).head? = some k → applies k = false) (budget : Nat)
    (operands : List Expr) : unwind applies budget entries operands = .ok (entries, operands) := by
  cases budget with
  | zero => rfl
  | succ budget =>
    cases entries with
    | nil => rfl
    | cons entry entries =>
      have hentry : applies entry.kind = false := h entry.kind rfl
      simp [unwind, hentry]

theorem unwind_of_reaches {applies : EntryKind → Bool} {entries entries' : List Entry}
    {operands operands' : List Expr}
    (h : Reaches (unwind applies) entries operands entries' operands')
    (hstop : ∀ k, (entries'.map Entry.kind).head? = some k → applies k = false) :
    unwind applies entries.length entries operands = .ok (entries', operands') := by
  obtain ⟨budget, -, he⟩ := h entries.length (Nat.le_refl _)
  rw [he, unwind_stop hstop]

theorem tighterThan_opener {kind k : EntryKind} (h : k.isOpener = true) :
    tighterThan kind k = false := by
  simp [tighterThan, h]

/-- An operator stops at entries that bind no tighter, and at an opener below them. -/
theorem stops_at {kind : EntryKind} {entries : List Entry} {ks : List EntryKind}
    {os : List Opening} (h : entries.map Entry.kind = ks ++ os.flatMap Opening.kinds)
    (hks : ∀ k ∈ ks, tighterThan kind k = false) :
    ∀ k, (entries.map Entry.kind).head? = some k → tighterThan kind k = false := by
  intro k hhead
  rw [h] at hhead
  cases ks with
  | nil => exact tighterThan_opener (Opening.isOpener_of_head? hhead)
  | cons first ks =>
    obtain rfl := Option.some.inj hhead
    exact hks first (by simp)

theorem pushOperator_of_reaches {s : Parsing} {kind : EntryKind} {entries : List Entry}
    {operands : List Expr}
    (h : Reaches (unwind (tighterThan kind)) s.operators s.operands entries operands)
    (hstop : ∀ k, (entries.map Entry.kind).head? = some k → tighterThan kind k = false)
    (pos : Nat) :
    s.pushOperator kind pos =
      .ok { s with operators := ⟨kind, pos⟩ :: entries, operands := operands } := by
  change (unwind (tighterThan kind) _ _ _).bind _ = _
  rw [unwind_of_reaches h hstop]
  rfl

theorem pushOperator_of_fails {s : Parsing} {kind : EntryKind}
    (h : Fails (unwind (tighterThan kind)) s.operators s.operands) (pos : Nat) :
    ∃ e, s.pushOperator kind pos = .error e ∧ s.Refuses pos e := by
  obtain ⟨entry, hentry, fault, hfault, he⟩ := h s.operators.length (Nat.le_refl _)
  refine ⟨.at fault entry.pos, ?_, .inr ⟨entry, hentry, rfl⟩, hfault⟩
  change (unwind (tighterThan kind) _ _ _).bind _ = _
  rw [he]
  rfl

theorem head?_replicate_append {α : Type} {n : Nat} {a b : α} {l : List α}
    (h : (List.replicate n a ++ l).head? = some b) : b = a ∨ l.head? = some b := by
  cases n with
  | zero => exact .inr h
  | succ n => exact .inl (Option.some.inj h).symm

section

variable {α : Type} {loop : Nat → List Entry → List Expr → Except SyntaxError α}
variable {f : Frame} {entries : List Entry} {outer : List EntryKind} {e tree : Expr}

theorem reaches_frame_unary (hn : Applies loop .not) (he : Applies loop .equals)
    (hk : entries.map Entry.kind = f.kinds ++ outer) (closed : f.unary e = some tree)
    (below : List Expr) :
    ∃ rest, Drops entries rest ∧
      rest.map Entry.kind = List.replicate f.factors.length .and ++
        (List.replicate f.alternatives.length .or ++
          (List.replicate f.separators .separator ++ outer)) ∧
      Reaches loop entries (e :: (f.operands ++ below)) rest
        (tree :: (f.factors ++ (f.alternatives ++ (f.segments ++ below)))) := by
  simp only [Frame.kinds, List.append_assoc] at hk
  obtain ⟨es, rest, rfl, hes, hrest⟩ := List.map_eq_append_iff.mp hk
  have hes' : .separator ∉ es.map Entry.kind := by
    rw [hes]
    exact Tight.separator_notMem_kinds f.tights
  refine ⟨rest, .of_append hes' rest, hrest, ?_⟩
  simp only [Frame.operands, List.append_assoc]
  exact reaches_unary hn he hes closed

theorem fails_frame (hn : Applies loop .not) (he : Applies loop .equals)
    (hk : entries.map Entry.kind = f.kinds ++ outer) (closed : f.unary e = none)
    (below : List Expr) :
    Fails loop entries (e :: (f.operands ++ below)) := by
  simp only [Frame.kinds, List.append_assoc] at hk
  obtain ⟨es, rest, rfl, hes, -⟩ := List.map_eq_append_iff.mp hk
  simp only [Frame.operands, List.append_assoc]
  exact fails_unary hn he hes closed

theorem applyEntry_and {entry : Entry} (h : entry.kind = .and) :
    applyEntry entry = applyChain .and entry := by
  funext entries operands
  simp [applyEntry, h]

theorem applyEntry_or {entry : Entry} (h : entry.kind = .or) :
    applyEntry entry = applyChain .or entry := by
  funext entries operands
  simp [applyEntry, h]

theorem reaches_frame_conjunction (hn : Applies loop .not) (he : Applies loop .equals)
    (ha : Applies loop .and) (houter : ∀ k, outer.head? = some k → k.isOpener = true)
    (hk : entries.map Entry.kind = f.kinds ++ outer) (closed : f.conjunction e = some tree)
    (below : List Expr) :
    ∃ rest, Drops entries rest ∧
      rest.map Entry.kind = List.replicate f.alternatives.length .or ++
        (List.replicate f.separators .separator ++ outer) ∧
      Reaches loop entries (e :: (f.operands ++ below)) rest
        (tree :: (f.alternatives ++ (f.segments ++ below))) := by
  obtain ⟨factor, hfactor, rfl⟩ := Option.map_eq_some_iff.mp closed
  obtain ⟨entries', hdrops, hk', hreaches⟩ := reaches_frame_unary hn he hk hfactor below
  obtain ⟨es, rest, rfl, hes, hrest⟩ := List.map_eq_append_iff.mp hk'
  have hstop : (rest.map Entry.kind).head? ≠ some .and := by
    intro hhead
    rw [hrest] at hhead
    rcases head?_replicate_append hhead with hor | hhead
    · cases hor
    rcases head?_replicate_append hhead with hseparator | hhead
    · cases hseparator
    cases houter _ hhead
  have hes' : .separator ∉ es.map Entry.kind := by simp [hes]
  exact ⟨rest, hdrops.trans (.of_append hes' rest), hrest,
    hreaches.trans (reaches_chain ha (fun _ => applyEntry_and) hes hstop)⟩

theorem reaches_frame_disjunction (hn : Applies loop .not) (he : Applies loop .equals)
    (ha : Applies loop .and) (ho : Applies loop .or)
    (houter : ∀ k, outer.head? = some k → k.isOpener = true)
    (hk : entries.map Entry.kind = f.kinds ++ outer) (closed : f.disjunction e = some tree)
    (below : List Expr) :
    ∃ rest, Drops entries rest ∧
      rest.map Entry.kind = List.replicate f.separators .separator ++ outer ∧
      Reaches loop entries (e :: (f.operands ++ below)) rest
        (tree :: (f.segments ++ below)) := by
  obtain ⟨alternative, halternative, rfl⟩ := Option.map_eq_some_iff.mp closed
  obtain ⟨entries', hdrops, hk', hreaches⟩ :=
    reaches_frame_conjunction hn he ha houter hk halternative below
  obtain ⟨es, rest, rfl, hes, hrest⟩ := List.map_eq_append_iff.mp hk'
  have hstop : (rest.map Entry.kind).head? ≠ some .or := by
    intro hhead
    rw [hrest] at hhead
    rcases head?_replicate_append hhead with hseparator | hhead
    · cases hseparator
    cases houter _ hhead
  have hes' : .separator ∉ es.map Entry.kind := by simp [hes]
  exact ⟨rest, hdrops.trans (.of_append hes' rest), hrest,
    hreaches.trans (reaches_chain ho (fun _ => applyEntry_or) hes hstop)⟩

end

end Parsing

end PathFilter
