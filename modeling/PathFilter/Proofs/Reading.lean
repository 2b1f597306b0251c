import PathFilter.Proofs.Grammar

namespace PathFilter

/-- An operator that binds tighter than the connectives and waits for its right-hand operand. -/
inductive Tight where
  | not
  /-- an equals sign after an operand, which need not be a value -/
  | equals (key : Expr)
deriving DecidableEq

/-- Both sides of an equals sign must be values. -/
def Tight.apply : Tight → Expr → Option Expr
  | .not, e => some (.apply .not [e])
  | .equals (.value k), .value v => some (.property k v)
  | .equals _, _ => none

theorem Tight.apply_equals {k e tree : Expr} (h : Tight.apply (.equals k) e = some tree) :
    ∃ key value, k = .value key ∧ e = .value value ∧ tree = .property key value := by
  unfold Tight.apply at h
  split at h
  next => contradiction
  next key value hk =>
    obtain rfl := Tight.equals.inj hk
    exact ⟨key, value, rfl, rfl, (Option.some.inj h).symm⟩
  next => contradiction

/-- What has been read since an opener and belongs to no tree yet, latest first: the segments that
a separator ended, the operands before `|` and before `&`, and what waits for one operand. -/
structure Frame where
  /-- a separator stands before the first segment -/
  leading : Bool
  segments : List Expr
  alternatives : List Expr
  factors : List Expr
  tights : List Tight

namespace Frame

def empty : Frame := ⟨false, [], [], [], []⟩

def separators (f : Frame) : Nat := f.segments.length + f.leading.toNat

def addTight (f : Frame) (t : Tight) : Frame := { f with tights := t :: f.tights }

def addFactor (f : Frame) (e : Expr) : Frame := { f with factors := e :: f.factors, tights := [] }

def addAlternative (f : Frame) (e : Expr) : Frame :=
  { f with alternatives := e :: f.alternatives, factors := [], tights := [] }

def addSegment (f : Frame) (e : Expr) : Frame := ⟨f.leading, e :: f.segments, [], [], []⟩

/-- The tree of an operand together with what waits for it. -/
def unary (f : Frame) (e : Expr) : Option Expr := f.tights.foldlM (fun e t => t.apply e) e

/-- The tree of an operand that ends a chain of `&`. -/
def conjunction (f : Frame) (e : Expr) : Option Expr :=
  (f.unary e).map fun e => .chain .and (f.factors.reverse ++ [e])

def disjunction (f : Frame) (e : Expr) : Option Expr :=
  (f.conjunction e).map fun e => .chain .or (f.alternatives.reverse ++ [e])

/-- The tree of an operand that a closer follows. No separator may stand before a closer. -/
def enclosed (f : Frame) (e : Expr) : Option Expr :=
  if f.separators = 0 then f.disjunction e else none

end Frame

/-- An opener that is not closed, with what was read before it. -/
inductive Opening where
  | group (outer : Frame)
  | bracket (outer : Frame) (p : Pattern)

namespace Opening

def isGroup : Opening → Bool
  | .group _ => true
  | .bracket _ _ => false

def isBracket : Opening → Bool
  | .group _ => false
  | .bracket _ _ => true

/-- Where an expression stands after some openings. -/
def place (os : List Opening) : Place := if os.any isBracket then .bracket else .segment

@[simp] theorem place_nil : place [] = .segment := rfl

@[simp] theorem place_group (f : Frame) (os : List Opening) :
    place (.group f :: os) = place os := rfl

@[simp] theorem place_bracket (f : Frame) (p : Pattern) (os : List Opening) :
    place (.bracket f p :: os) = .bracket := rfl

end Opening

inductive LastLexeme where
  /-- there was none -/
  | start
  /-- an operator or an opener -/
  | mark
  | separator
  | value (p : Pattern)
  /-- a closer, which completed the tree `e` -/
  | compound (e : Expr)

namespace LastLexeme

/-- The operand that the last lexeme completed. -/
def operand? : LastLexeme → Option Expr
  | .value p => some (.value (.ofPattern p))
  | .compound e => some e
  | _ => none

end LastLexeme

/-- A filter read up to some lexeme, as a tree in the making. The innermost opening comes first. -/
structure Reading where
  frame : Frame
  openings : List Opening
  last : LastLexeme

namespace Reading

def start : Reading := ⟨.empty, [], .start⟩

def inBracket (r : Reading) : Bool := r.openings.any Opening.isBracket

def place (r : Reading) : Place := Opening.place r.openings

def inGroup (r : Reading) : Bool := r.openings.any Opening.isGroup

/-- Pushes an operator that may stand before an operand only. -/
def expecting (r : Reading) (next : Reading) : Option Reading :=
  match r.last.operand? with
  | some _ => none
  | none => some next

/-- Goes on with the operand that was read last. -/
def withOperand (r : Reading) (next : Expr → Option Reading) : Option Reading :=
  r.last.operand?.bind next

def onSeparator (r : Reading) : Option Reading :=
  if r.inGroup then none
  else
    match r.last.operand?, r.last with
    | some e, _ => (r.frame.disjunction e).map fun e =>
        { r with frame := r.frame.addSegment e, last := .separator }
    | none, .start => some { r with frame := { r.frame with leading := true }, last := .separator }
    | none, _ => none

def onCloseGroup (r : Reading) (e : Expr) : Option Reading :=
  match r.openings with
  | .group outer :: openings => (r.frame.enclosed e).map fun e => ⟨outer, openings, .compound e⟩
  | _ => none

def onOpenBracket (r : Reading) : Option Reading :=
  match r.last with
  | .value p =>
    if r.inBracket then none else some ⟨.empty, .bracket r.frame p :: r.openings, .mark⟩
  | _ => none

def onCloseBracket (r : Reading) (e : Expr) : Option Reading :=
  match r.openings with
  | .bracket outer p :: openings =>
    (r.frame.enclosed e).map fun e => ⟨outer, openings, .compound (.node (.ofPattern p) e)⟩
  | _ => none

/-- Reads one lexeme, if the grammar lets it follow. -/
def step (r : Reading) : Lexeme → Option Reading
  | .value p => r.expecting { r with last := .value p }
  | .mark .not => r.expecting { r with frame := r.frame.addTight .not, last := .mark }
  | .mark .openGroup => r.expecting ⟨.empty, .group r.frame :: r.openings, .mark⟩
  | .mark .and => r.withOperand fun e => (r.frame.unary e).map fun e =>
      { r with frame := r.frame.addFactor e, last := .mark }
  | .mark .or => r.withOperand fun e => (r.frame.conjunction e).map fun e =>
      { r with frame := r.frame.addAlternative e, last := .mark }
  | .mark .equals => r.withOperand fun e =>
      if r.inBracket then some { r with frame := r.frame.addTight (.equals e), last := .mark }
      else none
  | .mark .closeGroup => r.withOperand r.onCloseGroup
  | .mark .closeBracket => r.withOperand r.onCloseBracket
  | .mark .openBracket => r.onOpenBracket
  | .mark .separator => r.onSeparator

def run (r : Reading) (l : List Lexeme) : Option Reading := l.foldlM step r

/-- The segments, if the text may end here. -/
def finish (r : Reading) : Option (List Expr) :=
  match r.openings, r.last.operand?, r.last with
  | [], some e, _ => (r.frame.disjunction e).map fun e => (e :: r.frame.segments).reverse
  | [], none, .separator =>
    if r.frame.segments.isEmpty then none else some r.frame.segments.reverse
  | _, _, _ => none

theorem expecting_eq_some_iff {r next r' : Reading} :
    r.expecting next = some r' ↔ r.last.operand? = none ∧ next = r' := by
  unfold expecting
  split
  next e he => simp [he]
  next he => simp [he]

theorem withOperand_eq_some_iff {r r' : Reading} {next : Expr → Option Reading} :
    r.withOperand next = some r' ↔ ∃ e, r.last.operand? = some e ∧ next e = some r' :=
  Option.bind_eq_some_iff

theorem expecting_eq_none {r : Reading} {e : Expr} (h : r.last.operand? = some e) (next : Reading) :
    r.expecting next = none := by
  simp only [expecting, h]

theorem withOperand_eq_none {r : Reading} (h : r.last.operand? = none)
    (next : Expr → Option Reading) : r.withOperand next = none := by
  simp only [withOperand, h, Option.bind_none]

theorem withOperand_of_operand {r : Reading} {e : Expr} (h : r.last.operand? = some e)
    (next : Expr → Option Reading) : r.withOperand next = next e := by
  simp only [withOperand, h, Option.bind_some]

/-- What a lexeme makes of a reading that it may follow. -/
inductive Steps : Reading → Lexeme → Reading → Prop
  | value {f : Frame} {os : List Opening} {x : LastLexeme} (hx : x.operand? = none) (p : Pattern) :
      Steps ⟨f, os, x⟩ (.value p) ⟨f, os, .value p⟩
  | not {f : Frame} {os : List Opening} {x : LastLexeme} (hx : x.operand? = none) :
      Steps ⟨f, os, x⟩ (.mark .not) ⟨f.addTight .not, os, .mark⟩
  | openGroup {f : Frame} {os : List Opening} {x : LastLexeme} (hx : x.operand? = none) :
      Steps ⟨f, os, x⟩ (.mark .openGroup) ⟨.empty, .group f :: os, .mark⟩
  | and {f : Frame} {os : List Opening} {x : LastLexeme} {e tree : Expr}
      (hx : x.operand? = some e) (closed : f.unary e = some tree) :
      Steps ⟨f, os, x⟩ (.mark .and) ⟨f.addFactor tree, os, .mark⟩
  | or {f : Frame} {os : List Opening} {x : LastLexeme} {e tree : Expr}
      (hx : x.operand? = some e) (closed : f.conjunction e = some tree) :
      Steps ⟨f, os, x⟩ (.mark .or) ⟨f.addAlternative tree, os, .mark⟩
  | equals {f : Frame} {os : List Opening} {x : LastLexeme} {e : Expr}
      (hx : x.operand? = some e) (hplace : Opening.place os = .bracket) :
      Steps ⟨f, os, x⟩ (.mark .equals) ⟨f.addTight (.equals e), os, .mark⟩
  | closeGroup {f outer : Frame} {os : List Opening} {x : LastLexeme} {e tree : Expr}
      (hx : x.operand? = some e) (closed : f.enclosed e = some tree) :
      Steps ⟨f, .group outer :: os, x⟩ (.mark .closeGroup) ⟨outer, os, .compound tree⟩
  | openBracket {f : Frame} {os : List Opening} (p : Pattern)
      (hplace : Opening.place os = .segment) :
      Steps ⟨f, os, .value p⟩ (.mark .openBracket) ⟨.empty, .bracket f p :: os, .mark⟩
  | closeBracket {f outer : Frame} {p : Pattern} {os : List Opening} {x : LastLexeme}
      {e tree : Expr} (hx : x.operand? = some e) (closed : f.enclosed e = some tree) :
      Steps ⟨f, .bracket outer p :: os, x⟩ (.mark .closeBracket)
        ⟨outer, os, .compound (.node (.ofPattern p) tree)⟩
  | separator {f : Frame} {os : List Opening} {x : LastLexeme} {e tree : Expr}
      (hx : x.operand? = some e) (closed : f.disjunction e = some tree) :
      Steps ⟨f, os, x⟩ (.mark .separator) ⟨f.addSegment tree, os, .separator⟩
  | leadingSeparator (f : Frame) (os : List Opening) :
      Steps ⟨f, os, .start⟩ (.mark .separator) ⟨{ f with leading := true }, os, .separator⟩

theorem steps_of_step {r r' : Reading} {y : Lexeme} (h : r.step y = some r') : r.Steps y r' := by
  obtain ⟨f, os, x⟩ := r
  match y with
  | .value p =>
    obtain ⟨hx, rfl⟩ := expecting_eq_some_iff.mp h
    exact .value hx p
  | .mark .not =>
    obtain ⟨hx, rfl⟩ := expecting_eq_some_iff.mp h
    exact .not hx
  | .mark .openGroup =>
    obtain ⟨hx, rfl⟩ := expecting_eq_some_iff.mp h
    exact .openGroup hx
  | .mark .and =>
    obtain ⟨e, hx, h⟩ := withOperand_eq_some_iff.mp h
    obtain ⟨tree, closed, rfl⟩ := Option.map_eq_some_iff.mp h
    exact .and hx closed
  | .mark .or =>
    obtain ⟨e, hx, h⟩ := withOperand_eq_some_iff.mp h
    obtain ⟨tree, closed, rfl⟩ := Option.map_eq_some_iff.mp h
    exact .or hx closed
  | .mark .equals =>
    obtain ⟨e, hx, h⟩ := withOperand_eq_some_iff.mp h
    obtain ⟨hin, h⟩ := Option.ite_none_right_eq_some.mp h
    obtain rfl := Option.some.inj h
    exact .equals hx (if_pos hin)
  | .mark .closeGroup =>
    obtain ⟨e, hx, h⟩ := withOperand_eq_some_iff.mp h
    match os with
    | .group outer :: os =>
      obtain ⟨tree, closed, rfl⟩ := Option.map_eq_some_iff.mp h
      exact .closeGroup hx closed
    | .bracket _ _ :: _ => cases h
    | [] => cases h
  | .mark .closeBracket =>
    obtain ⟨e, hx, h⟩ := withOperand_eq_some_iff.mp h
    match os with
    | .bracket outer p :: os =>
      obtain ⟨tree, closed, rfl⟩ := Option.map_eq_some_iff.mp h
      exact .closeBracket hx closed
    | .group _ :: _ => cases h
    | [] => cases h
  | .mark .openBracket =>
    cases x with
    | value p =>
      obtain ⟨hout, h⟩ := Option.ite_none_left_eq_some.mp h
      obtain rfl := Option.some.inj h
      exact .openBracket p (if_neg hout)
    | _ => cases h
  | .mark .separator =>
    obtain ⟨-, h⟩ := Option.ite_none_left_eq_some.mp h
    cases x with
    | value p =>
      obtain ⟨tree, closed, rfl⟩ := Option.map_eq_some_iff.mp h
      exact .separator rfl closed
    | compound e =>
      obtain ⟨tree, closed, rfl⟩ := Option.map_eq_some_iff.mp h
      exact .separator rfl closed
    | start =>
      obtain rfl := Option.some.inj h
      exact .leadingSeparator f os
    | _ => cases h

theorem Steps.last_ne_start {r r' : Reading} {y : Lexeme} (h : r.Steps y r') :
    r'.last ≠ .start := by
  cases h <;> exact nofun

theorem run_cons (r : Reading) (x : Lexeme) (l : List Lexeme) :
    r.run (x :: l) = (r.step x).bind fun r => r.run l := rfl

theorem run_append (r : Reading) (l k : List Lexeme) :
    r.run (l ++ k) = (r.run l).bind fun r => r.run k := List.foldlM_append

/-- What holds before a text and is kept by every step holds after it. -/
theorem run_induction {P : List Lexeme → Reading → Prop} {r r' : Reading} {l : List Lexeme}
    (before : P [] r) (step : ∀ l y s s', P l s → s.Steps y s' → P (l ++ [y]) s')
    (h : r.run l = some r') : P l r' := by
  have hrun : ∀ l k r, P k r → r.run l = some r' → P (k ++ l) r' := by
    intro l
    induction l with
    | nil =>
      intro k r hr hrun
      obtain rfl := Option.some.inj hrun
      simpa using hr
    | cons y l ih =>
      intro k r hr hrun
      obtain ⟨next, hstep, hrun⟩ := Option.bind_eq_some_iff.mp hrun
      simpa using ih (k ++ [y]) next (step k y r next hr (steps_of_step hstep)) hrun
  exact hrun l [] r before h

end Reading

end PathFilter
