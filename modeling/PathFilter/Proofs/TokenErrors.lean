import PathFilter.Parsing

namespace PathFilter

/-- Whether a fault tells of the end of a filter, and of no token that was read. -/
def SyntaxFault.atEnd : SyntaxFault → Bool
  | .unclosedGroup => true
  | .unclosedBracket => true
  | .endAfterMark _ => true
  | .emptyFilter => true
  | _ => false

/-- What a step of the parser may fail with: an error that has a place and does not tell of the end
of the filter. -/
def BlamesToken {α : Type} (x : Except SyntaxError α) : Prop :=
  ∀ e, x = .error e → e.pos.isSome = true ∧ e.fault.atEnd = false

namespace BlamesToken

variable {α β : Type} {x : Except SyntaxError α}

theorem ok (a : α) : BlamesToken (.ok a) := nofun

theorem error {fault : SyntaxFault} (h : fault.atEnd = false) (pos : Nat) :
    BlamesToken (.error (.at fault pos) : Except SyntaxError α) := by
  intro e he
  obtain rfl := Except.error.inj he
  exact ⟨rfl, h⟩

theorem bind {f : α → Except SyntaxError β} (first : BlamesToken x)
    (next : ∀ a, BlamesToken (f a)) : BlamesToken (x >>= f) := by
  intro e he
  cases x with
  | error error =>
    obtain rfl := Except.error.inj he
    exact first error rfl
  | ok a => exact next a e he

section

variable {c : Prop} [Decidable c] {fault : SyntaxFault}

theorem guarded (h : fault.atEnd = false) (pos : Nat) (next : BlamesToken x) :
    BlamesToken (if c then .error (.at fault pos) else x) := by
  split
  · exact .error h pos
  · exact next

theorem provided (h : fault.atEnd = false) (pos : Nat) (next : BlamesToken x) :
    BlamesToken (if c then x else .error (.at fault pos)) := by
  split
  · exact next
  · exact .error h pos

end

end BlamesToken

namespace Parsing

theorem popOperand_blames (pos : Nat) (operands : List Expr) :
    BlamesToken (popOperand pos operands) := by
  cases operands with
  | nil => exact .error rfl pos
  | cons e operands => exact .ok _

theorem takeChain_blames (kind : EntryKind) (entries : List Entry) (operands taken : List Expr) :
    BlamesToken (takeChain kind entries operands taken) := by
  induction entries generalizing operands taken with
  | nil => exact .ok _
  | cons entry entries ih =>
    rw [takeChain]
    split
    · exact (popOperand_blames _ _).bind fun _ => ih _ _
    · exact .ok _

theorem applyChain_blames (op : Operator) (entry : Entry) (entries : List Entry)
    (operands : List Expr) : BlamesToken (applyChain op entry entries operands) :=
  (popOperand_blames _ _).bind fun _ => (popOperand_blames _ _).bind fun _ =>
    (takeChain_blames _ _ _ _).bind fun _ => .ok _

theorem applyEntry_blames (entry : Entry) (entries : List Entry) (operands : List Expr) :
    BlamesToken (applyEntry entry entries operands) := by
  unfold applyEntry
  split
  · exact applyChain_blames _ _ _ _
  · exact applyChain_blames _ _ _ _
  · exact (popOperand_blames _ _).bind fun _ => .ok _
  · refine (popOperand_blames _ _).bind fun _ => (popOperand_blames _ _).bind fun _ => ?_
    dsimp only
    split
    · exact .ok _
    · exact .error rfl _
  · exact .error rfl _

theorem unwind_blames (applies : EntryKind → Bool) (budget : Nat) (entries : List Entry)
    (operands : List Expr) : BlamesToken (unwind applies budget entries operands) := by
  induction budget generalizing entries operands with
  | zero => exact .ok _
  | succ budget ih =>
    cases entries with
    | nil => exact .ok _
    | cons entry entries =>
      rw [unwind]
      split
      · exact (applyEntry_blames _ _ _).bind fun _ => ih _ _
      · exact .ok _

variable (s : Parsing) (pos : Nat)

theorem pushOperator_blames (kind : EntryKind) : BlamesToken (s.pushOperator kind pos) :=
  (unwind_blames _ _ _ _).bind fun _ => .ok _

theorem close_blames (opener : EntryKind) (closer openMark : Mark) :
    BlamesToken (s.close opener closer openMark pos) := by
  refine (unwind_blames _ _ _ _).bind fun _ => ?_
  dsimp only
  split
  · exact .error rfl pos
  · exact .provided rfl pos (.ok _)

theorem onConnective_blames (mark : Mark) (kind : EntryKind) :
    BlamesToken (s.onConnective mark kind pos) :=
  .provided rfl pos ((s.pushOperator_blames pos kind).bind fun _ => .ok _)

theorem onSeparator_blames : BlamesToken (s.onSeparator pos) := by
  have push := (s.pushOperator_blames pos .separator).bind fun s =>
    .ok { s with operatorAllowed := false, bracketAllowed := false }
  unfold onSeparator
  split
  · exact .error rfl pos
  · exact .guarded rfl pos (.guarded rfl pos push)

theorem onCloseGroup_blames : BlamesToken (s.onCloseGroup pos) :=
  .provided rfl pos ((s.close_blames pos _ _ _).bind fun _ => .ok _)

theorem onCloseBracket_blames : BlamesToken (s.onCloseBracket pos) := by
  refine .provided rfl pos ((s.close_blames pos _ _ _).bind fun _ =>
    (popOperand_blames _ _).bind fun _ => (popOperand_blames _ _).bind fun _ => ?_)
  dsimp only
  split
  · exact .ok _
  · exact .error rfl pos

theorem onLexeme_blames (filter : List Char) (y : Lexeme) :
    BlamesToken (s.onLexeme filter pos y) := by
  cases y with
  | value p => exact .guarded rfl pos (.ok _)
  | mark m =>
    cases m with
    | and => exact s.onConnective_blames pos _ _
    | or => exact s.onConnective_blames pos _ _
    | not => exact .guarded rfl pos (.ok _)
    | separator => exact s.onSeparator_blames pos
    | openGroup => exact .guarded rfl pos (.ok _)
    | closeGroup => exact s.onCloseGroup_blames pos
    | openBracket => exact .provided rfl pos (.ok _)
    | closeBracket => exact s.onCloseBracket_blames pos
    | equals => exact .guarded rfl pos (.guarded rfl pos (.ok _))

theorem consumeAll_blames (filter : List Char) (tokens : List Token) :
    BlamesToken (s.consumeAll filter tokens) := by
  induction tokens generalizing s with
  | nil => exact .ok _
  | cons token tokens ih =>
    exact ((s.onLexeme_blames token.pos filter token.lexeme).bind fun _ => .ok _).bind fun _ => ih _

end Parsing

end PathFilter
