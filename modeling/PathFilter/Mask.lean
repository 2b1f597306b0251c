import PathFilter.PatternText

namespace PathFilter

/-- A value as an expression holds it: a pattern in writing, with `.*` for a wildcard and a backslash
before a character that is to be taken as it is. A pattern has several writings, and values are
equal only if they are written alike. -/
structure Mask where
  text : List Char
deriving DecidableEq, Repr

namespace Mask

/-- The value that a filter spells by a pattern. -/
def ofPattern (p : Pattern) : Mask := ⟨p.encode⟩

def pattern (m : Mask) : Pattern := Pattern.decode m.text

def accepts (m : Mask) (t : List Char) : Bool := m.pattern.accepts t

/-- The value `**`. As a whole last segment it also selects everything below a node. -/
def everythingBelow : Mask := ofPattern Pattern.everythingBelow

/-- Writes a pattern as filters do. A backslash stays only before a character that has a meaning in
filters, and none is added. -/
def spell : List Char → List Char
  | [] => []
  | '.' :: '*' :: t => '*' :: spell t
  | '\\' :: c :: t => if Pattern.special.contains c then '\\' :: c :: spell t else c :: spell t
  | c :: t => c :: spell t

/-- The filter text of a value. -/
def shown (m : Mask) : List Char := spell m.text

theorem pattern_ofPattern (p : Pattern) : (ofPattern p).pattern = p := Pattern.decode_encode p

theorem ofPattern_injective {p q : Pattern} (h : ofPattern p = ofPattern q) : p = q := by
  rw [← pattern_ofPattern p, h, pattern_ofPattern]

theorem spell_plain {c : Char} (h : Pattern.reserved.contains c = false) (t : List Char) :
    spell (c :: t) = c :: spell t := by
  have hdot : c ≠ '.' := Pattern.ne_of_not_reserved h rfl
  have hslash : c ≠ '\\' := Pattern.ne_of_not_reserved h rfl
  rw [spell.eq_4]
  · exact fun _ he _ => hdot he
  · exact fun _ _ he _ => hslash he

theorem shown_ofPattern (p : Pattern) : (ofPattern p).shown = p.shown := by
  induction p with
  | nil => rfl
  | cons x p ih =>
    simp only [shown, ofPattern] at ih
    simp only [shown, ofPattern, Pattern.encode_cons, Pattern.shown_cons]
    cases x with
    | wildcard => simp [Pattern.encodePiece, Pattern.showPiece, spell, ih]
    | literal c =>
      cases h : Pattern.reserved.contains c with
      | true =>
        simp only [Pattern.encodePiece, Pattern.showPiece, h, ↓reduceIte, List.cons_append,
          List.nil_append, spell, ih, Bool.true_and]
        split <;> rfl
      | false =>
        simp only [Pattern.encodePiece, Pattern.showPiece, h, Bool.false_eq_true, ↓reduceIte,
          List.cons_append, List.nil_append, spell_plain h, ih, Bool.false_and]

end Mask

end PathFilter
