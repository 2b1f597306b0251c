import PathFilter.Proofs.WellFormed

namespace PathFilter

namespace Expr

/-- The lexemes of an operand: operators are put in parentheses. -/
def groupedLexemes (e : Expr) (l : List Lexeme) : List Lexeme :=
  match e with
  | .apply _ _ => .mark .openGroup :: (l ++ [.mark .closeGroup])
  | _ => l

def joinedLexemes (op : Operator) (operands : List (List Lexeme)) : List Lexeme :=
  match op with
  | .not => .mark .not :: operands.flatten
  | .and => [.mark .and].intercalate operands
  | .or => [.mark .or].intercalate operands

mutual

/-- The lexemes of a tree, in the order in which its text shows them. -/
def lexemes : Expr → List Lexeme
  | .value m => [.value m.pattern]
  | .apply op es => joinedLexemes op (operandLexemes es)
  | .property k v => [.value k.pattern, .mark .equals, .value v.pattern]
  | .node v e => .value v.pattern :: .mark .openBracket :: (lexemes e ++ [.mark .closeBracket])
  | .always => []
  | .foreign _ => []

def operandLexemes : List Expr → List (List Lexeme)
  | [] => []
  | e :: es => groupedLexemes e (lexemes e) :: operandLexemes es

end

theorem operandLexemes_eq_map (es : List Expr) :
    operandLexemes es = es.map fun e => groupedLexemes e (lexemes e) := by
  induction es with
  | nil => rfl
  | cons e es ih => simp [operandLexemes, ih]

end Expr

/-- The text of lexemes whose values are written by `write`. -/
def spell (write : Pattern → List Char) (l : List Lexeme) : List Char :=
  l.flatMap fun x =>
    match x with
    | .value p => write p
    | .mark m => [m.char]

section

variable {write : Pattern → List Char}

@[simp] theorem spell_nil : spell write [] = [] := rfl

@[simp] theorem spell_value (p : Pattern) (l : List Lexeme) :
    spell write (.value p :: l) = write p ++ spell write l := rfl

@[simp] theorem spell_mark (m : Mark) (l : List Lexeme) :
    spell write (.mark m :: l) = m.char :: spell write l := rfl

@[simp] theorem spell_append (l r : List Lexeme) :
    spell write (l ++ r) = spell write l ++ spell write r := List.flatMap_append

theorem spell_intercalate (m : Mark) (ls : List (List Lexeme)) :
    spell write ([.mark m].intercalate ls) = [m.char].intercalate (ls.map (spell write)) := by
  induction ls with
  | nil => rfl
  | cons l ls ih =>
    cases ls with
    | nil => simp
    | cons r ls => simpa using ih

end

namespace Expr.WellFormed

variable {lastSegment : Bool} {place : Place} {e : Expr}

theorem shown_eq_spell (h : e.WellFormed lastSegment place) :
    e.shown = spell Pattern.shown e.lexemes := by
  induction h with
  | value spelled =>
    obtain ⟨p, -, rfl⟩ := spelled
    simp [shown, lexemes, Mask.shown_ofPattern, Mask.pattern_ofPattern]
  | presence spelled =>
    obtain ⟨p, -, rfl⟩ := spelled
    simp [shown, lexemes, Mask.shown_ofPattern, Mask.pattern_ofPattern]
  | property key value =>
    obtain ⟨p, -, rfl⟩ := key
    obtain ⟨q, -, rfl⟩ := value
    simp [shown, lexemes, Mask.shown_ofPattern, Mask.pattern_ofPattern, Mark.char]
  | node spelled _ _ ih =>
    obtain ⟨p, -, rfl⟩ := spelled
    simp [shown, lexemes, Mask.shown_ofPattern, Mask.pattern_ofPattern, ih, Mark.char]
  | @apply _ _ op es count _ ih =>
    have operands : shownOperands es = (operandLexemes es).map (spell Pattern.shown) := by
      rw [shownOperands_eq_map, operandLexemes_eq_map, List.map_map]
      refine List.map_congr_left fun e he => ?_
      cases e <;> simp [grouped, groupedLexemes, ih _ he, Mark.char]
    rw [shown, lexemes, operands]
    cases op with
    | and => rw [joinedLexemes, spell_intercalate]; rfl
    | or => rw [joinedLexemes, spell_intercalate]; rfl
    | not =>
      obtain ⟨e, rfl⟩ := List.length_eq_one_iff.mp (by simpa [Operator.admits] using count)
      simp [joined, joinedLexemes, operandLexemes, Mark.char]

/-- The lexemes of a tree have this tree, as a whole and as an operand. -/
theorem derives_lexemes (h : e.WellFormed lastSegment place) :
    Derives place .unary (groupedLexemes e e.lexemes) e ∧ Derives place .or e.lexemes e := by
  have single : ∀ {place : Place} {l : List Lexeme} {e : Expr}, Derives place .unary l e →
      Derives place .unary l e ∧ Derives place .or l e :=
    fun h => ⟨h, h.conjunction.disjunction⟩
  have chain : ∀ {place : Place} {l : List Lexeme} {op : Operator} {es : List Expr},
      Derives place .or l (.apply op es) →
      Derives place .unary (groupedLexemes (.apply op es) l) (.apply op es) ∧
        Derives place .or l (.apply op es) :=
    fun h => ⟨h.group, h⟩
  induction h with
  | value spelled =>
    obtain ⟨p, -, rfl⟩ := spelled
    simp only [groupedLexemes, lexemes, Mask.pattern_ofPattern]
    exact single (.value p)
  | presence spelled =>
    obtain ⟨p, -, rfl⟩ := spelled
    simp only [groupedLexemes, lexemes, Mask.pattern_ofPattern]
    exact single (.presence (.plain p))
  | property key value =>
    obtain ⟨p, -, rfl⟩ := key
    obtain ⟨q, -, rfl⟩ := value
    simp only [groupedLexemes, lexemes, Mask.pattern_ofPattern]
    exact single (.property (.plain p) (.plain q))
  | node spelled _ _ ih =>
    obtain ⟨p, -, rfl⟩ := spelled
    simp only [groupedLexemes, lexemes, Mask.pattern_ofPattern]
    exact single (.node p ih.2)
  | @apply _ place op es count _ ih =>
    have nonempty : es ≠ [] := by
      rintro rfl
      cases op <;> simp [Operator.admits] at count
    have hparts : ∀ part ∈ es.map (fun e => (groupedLexemes e e.lexemes, e)),
        Derives place .unary part.1 part.2 :=
      List.forall_mem_map.mpr fun e he => (ih e he).1
    refine chain ?_
    rw [lexemes, operandLexemes_eq_map]
    cases op with
    | and =>
      have hchain := Derives.and (by simpa using nonempty) hparts
      simp only [List.map_map, Function.comp_def, List.map_id'] at hchain
      rw [chain_of_two_le (by simpa [Operator.admits] using count)] at hchain
      exact hchain.disjunction
    | or =>
      have hchain := Derives.or (by simpa using nonempty)
        (fun part hpart => (hparts part hpart).conjunction)
      simp only [List.map_map, Function.comp_def, List.map_id'] at hchain
      rwa [chain_of_two_le (by simpa [Operator.admits] using count)] at hchain
    | not =>
      obtain ⟨e, rfl⟩ := List.length_eq_one_iff.mp (by simpa [Operator.admits] using count)
      have hnot := Derives.not (ih e (by simp)).1
      simpa [joinedLexemes] using hnot.conjunction.disjunction

end Expr.WellFormed

def Place.depth : Place → Int
  | .segment => 0
  | .bracket => 1

/-- A value that is written so that it is read back. A separator needs no backslash in brackets. -/
def Writes (write : Pattern → List Char) (p : Pattern) : Prop :=
  ∀ depth : Int, (.literal '/' ∈ p → 0 < depth) → SpellsValue depth p (write p)

/-- The lexemes may be written before a mark where `depth` brackets are open, and leave `after`
brackets open. -/
def Writable (write : Pattern → List Char) (depth after : Int) (l : List Lexeme) : Prop :=
  ∀ rest u, startsWithValue rest = false → Spells after rest u →
    Spells depth (l ++ rest) (spell write l ++ u)

namespace Writable

variable {write : Pattern → List Char} {depth middle after : Int} {l k : List Lexeme}

theorem value {p : Pattern} (nonempty : p ≠ []) (text : SpellsValue depth p (write p)) :
    Writable write depth depth [.value p] := by
  intro rest u ended hrest
  simpa using Spells.value nonempty text ended hrest

theorem cons {m : Mark} (live : m = .separator → depth ≤ 0)
    (h : Writable write (m.depthAfter depth) after l) :
    Writable write depth after (.mark m :: l) :=
  fun rest u ended hrest => .mark live (h rest u ended hrest)

theorem singleton (m : Mark) (live : m = .separator → depth ≤ 0) :
    Writable write depth (m.depthAfter depth) [.mark m] :=
  fun _ _ _ hrest => .mark live hrest

theorem append {m : Mark} (h : Writable write depth middle l)
    (hk : Writable write middle after (.mark m :: k)) :
    Writable write depth after (l ++ .mark m :: k) := by
  intro rest u ended hrest
  have := h _ _ rfl (hk rest u ended hrest)
  simpa using this

theorem intercalate {m : Mark} (live : m = .separator → depth ≤ 0)
    (level : m.depthAfter depth = depth) {ls : List (List Lexeme)} (nonempty : ls ≠ [])
    (h : ∀ l ∈ ls, Writable write depth depth l) :
    Writable write depth depth ([.mark m].intercalate ls) := by
  induction ls with
  | nil => contradiction
  | cons l ls ih =>
    obtain ⟨head, tail⟩ := List.forall_mem_cons.mp h
    cases ls with
    | nil => simpa using head
    | cons k ls =>
      have hrest := ih (by simp) tail
      have hmark : Writable write depth depth (.mark m :: [.mark m].intercalate (k :: ls)) :=
        cons live (level.symm ▸ hrest)
      simpa using head.append hmark

end Writable

section

variable {lastSegment : Bool} {place : Place} {e : Expr} {write : Pattern → List Char}

theorem mem_encode_iff {c : Char} (hc : c ≠ '.' ∧ c ≠ '*' ∧ c ≠ '\\') {p : Pattern} :
    c ∈ p.encode ↔ .literal c ∈ p := by
  induction p with
  | nil => simp [Pattern.encode]
  | cons x p ih =>
    rw [Pattern.encode_cons, List.mem_append, List.mem_cons, ih]
    refine or_congr_left ?_
    cases x with
    | wildcard => simp [Pattern.encodePiece, hc]
    | literal d =>
      simp only [Pattern.encodePiece]
      split <;> simp [hc]

/-- A value that stands for a segment's text has no separator to write. -/
theorem Writes.segment {p : Pattern} (h : Writes write p)
    (fits : (Mask.ofPattern p).FitsSegment lastSegment) : SpellsValue 0 p (write p) :=
  h 0 fun hmem => absurd ((mem_encode_iff (by decide)).mpr hmem) fits.whole

theorem Writes.bracket {p : Pattern} (h : Writes write p) : SpellsValue 1 p (write p) :=
  h 1 fun _ => by decide

namespace Expr

theorem writable_grouped {depth : Int} (h : Writable write depth depth e.lexemes) :
    Writable write depth depth (groupedLexemes e e.lexemes) := by
  cases e with
  | apply op es => exact .cons (by simp) (.append h (.singleton .closeGroup (by simp)))
  | _ => exact h

theorem WellFormed.writable (h : e.WellFormed lastSegment place)
    (hw : ∀ m ∈ e.masks, Writes write m.pattern) :
    Writable write place.depth place.depth e.lexemes := by
  induction h with
  | value spelled fits =>
    obtain ⟨p, hp, rfl⟩ := spelled
    simp only [masks, List.forall_mem_singleton, Mask.pattern_ofPattern] at hw
    rw [lexemes, Mask.pattern_ofPattern]
    exact .value hp (hw.segment fits)
  | presence spelled =>
    obtain ⟨p, hp, rfl⟩ := spelled
    simp only [masks, List.forall_mem_singleton, Mask.pattern_ofPattern] at hw
    rw [lexemes, Mask.pattern_ofPattern]
    exact .value hp hw.bracket
  | property key value =>
    obtain ⟨p, hp, rfl⟩ := key
    obtain ⟨q, hq, rfl⟩ := value
    simp only [masks, List.forall_mem_cons, Mask.pattern_ofPattern] at hw
    rw [lexemes, Mask.pattern_ofPattern, Mask.pattern_ofPattern]
    have hvalue : Writable write 1 1 (.mark .equals :: [.value q]) :=
      .cons (by simp) (.value hq hw.2.1.bracket)
    exact .append (l := [.value p]) (.value hp hw.1.bracket) hvalue
  | @node _ _ e spelled fits _ ih =>
    obtain ⟨p, hp, rfl⟩ := spelled
    simp only [masks, List.forall_mem_cons, Mask.pattern_ofPattern] at hw
    rw [lexemes, Mask.pattern_ofPattern]
    have hclosed : Writable write 1 0 (e.lexemes ++ [.mark .closeBracket]) :=
      .append (ih hw.2) (.singleton .closeBracket (by simp))
    exact .append (l := [.value p]) (.value hp (hw.1.segment fits)) (.cons (by simp) hclosed)
  | @apply _ place op es count _ ih =>
    have nonempty : operandLexemes es ≠ [] := by
      rw [operandLexemes_eq_map]
      cases es with
      | nil => cases op <;> simp [Operator.admits] at count
      | cons => simp
    have operands : ∀ l ∈ operandLexemes es, Writable write place.depth place.depth l := by
      rw [operandLexemes_eq_map]
      refine List.forall_mem_map.mpr fun e he => writable_grouped (ih e he fun m hm => hw m ?_)
      rw [masks, masksOfAll_eq_flatMap]
      exact List.mem_flatMap.mpr ⟨e, he, hm⟩
    rw [lexemes]
    cases op with
    | and => exact .intercalate (by simp) rfl nonempty operands
    | or => exact .intercalate (by simp) rfl nonempty operands
    | not =>
      obtain ⟨e, rfl⟩ := List.length_eq_one_iff.mp (by simpa [Operator.admits] using count)
      simp only [joinedLexemes, operandLexemes, List.flatten_cons, List.flatten_nil,
        List.append_nil] at operands ⊢
      exact .cons (by simp) (operands _ (by simp))

end Expr

/-- The lexemes of a filter with a separator between the segments and none around them. -/
def filterLexemes (segments : List Expr) : List Lexeme :=
  [.mark .separator].intercalate (segments.map Expr.lexemes)

namespace WellFormedSegments

variable {segments : List Expr}

theorem ne_nil (h : WellFormedSegments segments) : segments ≠ [] := by
  cases h <;> simp

theorem each (h : WellFormedSegments segments) :
    ∀ e ∈ segments, ∃ lastSegment, e.WellFormed lastSegment .segment := by
  induction h with
  | last h => exact List.forall_mem_singleton.mpr ⟨true, h⟩
  | cons head _ ih => exact List.forall_mem_cons.mpr ⟨⟨false, head⟩, ih⟩

theorem derives (h : WellFormedSegments segments) :
    DerivesFilter (filterLexemes segments) segments := by
  have hparts : ∀ part ∈ segments.map (fun e => (e.lexemes, e)),
      Derives .segment .or part.1 part.2 := by
    refine List.forall_mem_map.mpr fun e he => ?_
    obtain ⟨lastSegment, hwell⟩ := h.each e he
    exact hwell.derives_lexemes.2
  have hsegments := DerivesFilter.segments false false (by simpa using h.ne_nil) hparts
  simpa [optionalSeparator, filterLexemes, Function.comp_def] using hsegments

theorem spells (h : WellFormedSegments segments)
    (hw : ∀ e ∈ segments, ∀ m ∈ e.masks, Writes write m.pattern) :
    Spells 0 (filterLexemes segments) (spell write (filterLexemes segments)) := by
  have hwritable : Writable write 0 0 (filterLexemes segments) := by
    refine .intercalate (fun _ => by decide) rfl (by simpa using h.ne_nil) ?_
    refine List.forall_mem_map.mpr fun e he => ?_
    obtain ⟨lastSegment, hwell⟩ := h.each e he
    exact hwell.writable (hw e he)
  simpa using hwritable [] [] rfl (.nil 0)

/-- Segments are read back from any text that writes their values so that they are read back. -/
theorem parse_spell (h : WellFormedSegments segments)
    (hw : ∀ e ∈ segments, ∀ m ∈ e.masks, Writes write m.pattern) :
    parseFilter (String.ofList (spell write (filterLexemes segments))) = .ok segments := by
  refine parseFilter_iff_spells.mpr ⟨filterLexemes segments, ?_, h.derives, h.valid⟩
  simpa using h.spells hw

end WellFormedSegments

end

end PathFilter
