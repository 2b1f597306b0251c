import PathFilter.Proofs.Printing

namespace PathFilter

namespace Pattern

def escaped (p : Pattern) : List Char :=
  p.flatMap fun x =>
    match x with
    | .literal c => ['\\', c]
    | .wildcard => ['*']

theorem writes_escaped (p : Pattern) : Writes escaped p := by
  intro depth hslash
  clear hslash
  induction p with
  | nil => exact .nil
  | cons x p ih =>
    cases x with
    | literal c => exact .cons (.escaped c) ih
    | wildcard => exact .cons .wildcard ih

/-- The special characters that no backslash is put before. -/
theorem eq_of_not_reserved {c : Char} (hspecial : special.contains c = true)
    (hreserved : reserved.contains c = false) : c = '!' ∨ c = '=' ∨ c = '/' := by
  simp only [special, List.contains_eq_mem, List.mem_cons, List.not_mem_nil, or_false,
    decide_eq_true_eq] at hspecial
  rcases hspecial with rfl | rfl | rfl | rfl | rfl | rfl | rfl | rfl | rfl | rfl | rfl <;>
    first | contradiction | simp

theorem spells_showPiece {depth : Int} {x : Piece} (hnot : x ≠ .literal '!')
    (hequals : x ≠ .literal '=') (hslash : x = .literal '/' → 0 < depth) :
    SpellsPiece depth x (showPiece x) := by
  cases x with
  | wildcard => exact .wildcard
  | literal c =>
    rw [showPiece]
    by_cases hspecial : special.contains c = true
    · by_cases hreserved : reserved.contains c = true
      · rw [if_pos (by rw [hreserved, hspecial]; rfl)]
        exact .escaped c
      · rw [if_neg (by rw [Bool.and_eq_true]; exact fun h => hreserved h.1)]
        rcases eq_of_not_reserved hspecial (by simpa using hreserved) with rfl | rfl | rfl
        · contradiction
        · contradiction
        · exact .slash (hslash rfl)
    · rw [if_neg (by rw [Bool.and_eq_true]; exact fun h => hspecial h.2)]
      exact .plain (by simpa using hspecial)

theorem writes_shown {p : Pattern} (hnot : .literal '!' ∉ p) (hequals : .literal '=' ∉ p) :
    Writes shown p := by
  intro depth hslash
  induction p with
  | nil => exact .nil
  | cons x p ih =>
    simp only [List.mem_cons, not_or] at hnot hequals
    rw [shown_cons]
    have head : SpellsPiece depth x (showPiece x) :=
      spells_showPiece (Ne.symm hnot.1) (Ne.symm hequals.1)
        fun hx => hslash (hx ▸ List.mem_cons_self)
    exact .cons head (ih hnot.2 hequals.2 fun hmem => hslash (List.mem_cons_of_mem x hmem))

end Pattern

/-- The segments that filters have are the well-formed ones. -/
theorem exists_parseFilter_iff {segments : List Expr} :
    (∃ f, parseFilter f = .ok segments) ↔ WellFormedSegments segments := by
  constructor
  · rintro ⟨f, h⟩
    exact wellFormed_of_parseFilter h
  · intro h
    exact ⟨_, h.parse_spell fun e _ m _ => Pattern.writes_escaped m.pattern⟩

/-- The characters that a backslash precedes, in order. -/
def escapes : List Char → List Char
  | '\\' :: c :: t => c :: escapes t
  | _ :: t => escapes t
  | [] => []

theorem escapes_plain {c : Char} (h : c ≠ '\\') (t : List Char) : escapes (c :: t) = escapes t := by
  rw [escapes.eq_2]
  exact fun _ _ he _ => h he

/-- A text that holds its escapes in itself, whatever follows it. -/
def Escapes (t found : List Char) : Prop := ∀ u, escapes (t ++ u) = found ++ escapes u

namespace Escapes

theorem nil : Escapes [] [] := fun _ => rfl

theorem append {t u found found' : List Char} (h : Escapes t found) (h' : Escapes u found') :
    Escapes (t ++ u) (found ++ found') := by
  intro v
  rw [List.append_assoc, h, h', List.append_assoc]

theorem escaped (c : Char) : Escapes ['\\', c] [c] := fun _ => rfl

theorem plain {c : Char} (h : c ≠ '\\') : Escapes [c] [] := escapes_plain h

theorem mark (m : Mark) : Escapes [m.char] [] := plain (by cases m <;> decide)

end Escapes

/-- A special character gets into a value through a backslash, unless it is a separator. -/
theorem SpellsPiece.escapes {depth : Int} {x : Piece} {t : List Char} (h : SpellsPiece depth x t) :
    ∃ found, Escapes t found ∧ ∀ c, x = .literal c → Pattern.special.contains c = true → c ≠ '/' →
      c ∈ found := by
  cases h with
  | escaped c =>
    refine ⟨[c], .escaped c, ?_⟩
    rintro _ ⟨⟩ _ _
    simp
  | wildcard => exact ⟨[], .plain (by decide), nofun⟩
  | @plain c h =>
    refine ⟨[], .plain ?_, ?_⟩
    · rintro rfl
      contradiction
    · rintro _ ⟨⟩ hspecial _
      rw [h] at hspecial
      contradiction
  | slash h =>
    refine ⟨[], .plain (by decide), ?_⟩
    rintro _ ⟨⟩ _ hslash
    contradiction

theorem SpellsValue.escapes {depth : Int} {p : Pattern} {t : List Char}
    (h : SpellsValue depth p t) :
    ∃ found, Escapes t found ∧ ∀ c, .literal c ∈ p → Pattern.special.contains c = true → c ≠ '/' →
      c ∈ found := by
  induction h with
  | nil => exact ⟨[], .nil, nofun⟩
  | cons head _ ih =>
    obtain ⟨first, hfirst, hhead⟩ := head.escapes
    obtain ⟨rest, hrest, htail⟩ := ih
    refine ⟨first ++ rest, hfirst.append hrest, ?_⟩
    intro c hmem hspecial hslash
    rcases List.mem_cons.mp hmem with hx | hmem
    · exact List.mem_append_left _ (hhead c hx.symm hspecial hslash)
    · exact List.mem_append_right _ (htail c hmem hspecial hslash)

theorem Spells.mem_escapes {depth : Int} {l : List Lexeme} {t : List Char} (h : Spells depth l t)
    {p : Pattern} (hp : p ∈ patternsOf l) {c : Char} (hc : .literal c ∈ p)
    (hspecial : Pattern.special.contains c = true) (hslash : c ≠ '/') : c ∈ escapes t := by
  induction h with
  | nil => cases hp
  | value _ text _ _ ih =>
    obtain ⟨found, hfound, hvalue⟩ := text.escapes
    rw [hfound]
    rcases List.mem_cons.mp hp with rfl | hp
    · exact List.mem_append_left _ (hvalue c hc hspecial hslash)
    · exact List.mem_append_right _ (ih hp)
  | @mark _ m _ u _ _ ih =>
    have hmark : escapes (m.char :: u) = escapes u := Escapes.mark m u
    rw [hmark]
    exact ih hp

/-- A text that puts a backslash before reserved characters only. -/
def EscapesReserved (t : List Char) : Prop :=
  ∃ found, Escapes t found ∧ ∀ c ∈ found, Pattern.reserved.contains c = true

namespace EscapesReserved

theorem nil : EscapesReserved [] := ⟨[], .nil, nofun⟩

theorem append {t u : List Char} (h : EscapesReserved t) (h' : EscapesReserved u) :
    EscapesReserved (t ++ u) := by
  obtain ⟨found, hfound, hreserved⟩ := h
  obtain ⟨found', hfound', hreserved'⟩ := h'
  exact ⟨found ++ found', hfound.append hfound', List.forall_mem_append.mpr ⟨hreserved, hreserved'⟩⟩

theorem flatMap {α : Type} {f : α → List Char} (h : ∀ x, EscapesReserved (f x)) (xs : List α) :
    EscapesReserved (xs.flatMap f) := by
  induction xs with
  | nil => exact .nil
  | cons x xs ih => exact (h x).append ih

theorem showPiece (x : Piece) : EscapesReserved (Pattern.showPiece x) := by
  cases x with
  | wildcard => exact ⟨[], .plain (by decide), nofun⟩
  | literal c =>
    rw [Pattern.showPiece]
    split
    next h => exact ⟨[c], .escaped c, by simpa using (Bool.and_eq_true_iff.mp h).1⟩
    next h =>
      refine ⟨[], .plain ?_, nofun⟩
      rintro rfl
      contradiction

theorem spell (l : List Lexeme) : EscapesReserved (spell Pattern.shown l) := by
  refine flatMap (fun x => ?_) l
  cases x with
  | value p => exact flatMap showPiece p
  | mark m => exact ⟨[], .mark m, nofun⟩

theorem mem {t : List Char} (h : EscapesReserved t) {c : Char} (hc : c ∈ escapes t) :
    Pattern.reserved.contains c = true := by
  obtain ⟨found, hfound, hreserved⟩ := h
  have hescapes : escapes t = found := by simpa [escapes] using hfound []
  exact hreserved c (hescapes ▸ hc)

end EscapesReserved

theorem DerivesFilter.masks_eq {l : List Lexeme} {segments : List Expr}
    (h : DerivesFilter l segments) :
    segments.flatMap Expr.masks = (patternsOf l).map Mask.ofPattern := by
  obtain ⟨leading, trailing, -, each⟩ := h
  rename_i parts
  have hseparator : ∀ present, patternsOf (optionalSeparator present) = [] := by
    intro present
    cases present <;> rfl
  rw [patternsOf_append, patternsOf_append, hseparator, hseparator, patternsOf_intercalate,
    List.nil_append, List.append_nil, List.map_flatMap, List.flatMap_map, List.flatMap_map]
  exact List.flatMap_congr fun part hpart => (each part hpart).masks_eq

theorem DerivesFilter.exists_pattern {l : List Lexeme} {segments : List Expr}
    (h : DerivesFilter l segments) {e : Expr} (he : e ∈ segments) {m : Mask} (hm : m ∈ e.masks) :
    ∃ p ∈ patternsOf l, m = .ofPattern p := by
  have hmask : m ∈ segments.flatMap Expr.masks := List.mem_flatMap.mpr ⟨e, he, hm⟩
  rw [h.masks_eq] at hmask
  obtain ⟨p, hp, rfl⟩ := List.mem_map.mp hmask
  exact ⟨p, hp, rfl⟩

/-- The text of a filter: the texts of its segments with separators between them. -/
def shownSegments (segments : List Expr) : String :=
  String.ofList ([Mark.separator.char].intercalate (segments.map Expr.shown))

namespace WellFormedSegments

variable {segments : List Expr}

theorem shownSegments_eq (h : WellFormedSegments segments) :
    shownSegments segments = String.ofList (spell Pattern.shown (filterLexemes segments)) := by
  rw [shownSegments, filterLexemes, spell_intercalate, List.map_map]
  congr 2
  refine List.map_congr_left fun e he => ?_
  obtain ⟨lastSegment, hwell⟩ := h.each e he
  exact hwell.shown_eq_spell

/-- Without `!` and `=` in its values a filter is read back from its text. -/
theorem parse_shown (h : WellFormedSegments segments)
    (hmasks : ∀ e ∈ segments, ∀ m ∈ e.masks, '!' ∉ m.text ∧ '=' ∉ m.text) :
    parseFilter (shownSegments segments) = .ok segments := by
  rw [h.shownSegments_eq]
  refine h.parse_spell fun e he m hm => ?_
  obtain ⟨p, -, rfl⟩ := h.derives.exists_pattern he hm
  obtain ⟨hnot, hequals⟩ := hmasks e he _ hm
  rw [Mask.pattern_ofPattern]
  exact Pattern.writes_shown (mt (mem_encode_iff (by decide)).mpr hnot)
    (mt (mem_encode_iff (by decide)).mpr hequals)

/-- No text of a filter has a `!` or `=` in a value. -/
theorem unmarked_of_parse_shown (h : WellFormedSegments segments) {read : List Expr}
    (hread : parseFilter (shownSegments segments) = .ok read) :
    ∀ e ∈ read, ∀ m ∈ e.masks, '!' ∉ m.text ∧ '=' ∉ m.text := by
  obtain ⟨l, hspells, hderives, -⟩ := parseFilter_iff_spells.mp hread
  rw [h.shownSegments_eq, String.toList_ofList] at hspells
  have hvalue : ∀ p ∈ patternsOf l, ∀ c, Pattern.special.contains c = true → c ≠ '/' →
      Pattern.reserved.contains c = false → .literal c ∉ p := by
    intro p hp c hspecial hslash hreserved hmem
    have hescaped := (EscapesReserved.spell _).mem (hspells.mem_escapes hp hmem hspecial hslash)
    rw [hreserved] at hescaped
    contradiction
  intro e he m hm
  obtain ⟨p, hp, rfl⟩ := hderives.exists_pattern he hm
  exact ⟨mt (mem_encode_iff (by decide)).mp (hvalue p hp '!' rfl (by decide) rfl),
    mt (mem_encode_iff (by decide)).mp (hvalue p hp '=' rfl (by decide) rfl)⟩

end WellFormedSegments

/-- Well-formed segments are read back from their text, parentheses and all, if and only if no value
in them holds a literal `!` or `=`. -/
theorem shownSegments_readBack_iff {segments : List Expr} (h : WellFormedSegments segments) :
    parseFilter (shownSegments segments) = .ok segments ↔
      ∀ e ∈ segments, ∀ m ∈ e.masks, .literal '!' ∉ m.pattern ∧ .literal '=' ∉ m.pattern := by
  have hliteral (c : Char) (hc : c ≠ '.' ∧ c ≠ '*' ∧ c ≠ '\\') :
      ∀ e ∈ segments, ∀ m ∈ e.masks, c ∉ m.text ↔ .literal c ∉ m.pattern := by
    intro e he m hm
    obtain ⟨p, -, rfl⟩ := h.derives.exists_pattern he hm
    rw [Mask.pattern_ofPattern]
    exact not_congr (mem_encode_iff hc)
  constructor
  · intro hread e he m hm
    obtain ⟨hnot, hequals⟩ := h.unmarked_of_parse_shown hread e he m hm
    exact ⟨(hliteral '!' (by decide) e he m hm).mp hnot,
      (hliteral '=' (by decide) e he m hm).mp hequals⟩
  · intro hmasks
    refine h.parse_shown fun e he m hm => ?_
    obtain ⟨hnot, hequals⟩ := hmasks e he m hm
    exact ⟨(hliteral '!' (by decide) e he m hm).mpr hnot,
      (hliteral '=' (by decide) e he m hm).mpr hequals⟩

/-- A group of `|` below another, before a segment whose property has the value `=`. -/
theorem shownSegments_readBack_iff_grouped :
    let segments : List Expr :=
      [.apply .or [.apply .or [.value ⟨['\\', '.', '.', '*']⟩, .value ⟨['A']⟩], .value ⟨['B']⟩],
        .node .everythingBelow (.apply .not [.property ⟨['k']⟩ ⟨['=']⟩])]
    WellFormedSegments segments ∧
      (parseFilter (shownSegments segments) = .ok segments ↔
        ∀ e ∈ segments, ∀ m ∈ e.masks, .literal '!' ∉ m.pattern ∧ .literal '=' ∉ m.pattern) := by
  intro segments
  have name : ∀ {m : Mask}, m ∈ [⟨['\\', '.', '.', '*']⟩, ⟨['A']⟩, (⟨['B']⟩ : Mask)] →
      (Expr.value m).WellFormed false .segment := by
    intro m hm
    simp only [List.mem_cons, List.not_mem_nil, or_false] at hm
    rcases hm with rfl | rfl | rfl
    · exact .value ⟨[.literal '.', .wildcard], by decide, rfl⟩ ⟨by decide, by decide⟩
    · exact .value ⟨[.literal 'A'], by decide, rfl⟩ ⟨by decide, by decide⟩
    · exact .value ⟨[.literal 'B'], by decide, rfl⟩ ⟨by decide, by decide⟩
  have group : (Expr.apply .or [.value ⟨['\\', '.', '.', '*']⟩, .value ⟨['A']⟩]).WellFormed
      false .segment :=
    .apply rfl (by simp [name])
  have property : (Expr.property ⟨['k']⟩ ⟨['=']⟩).WellFormed true .bracket :=
    .property ⟨[.literal 'k'], by decide, rfl⟩ ⟨[.literal '='], by decide, rfl⟩
  have well : WellFormedSegments segments :=
    .cons (.apply rfl (by simp [name, group]))
      (.last (.node ⟨_, by decide, rfl⟩ ⟨by decide, fun _ => rfl⟩ (.apply rfl (by simp [property]))))
  exact ⟨well, shownSegments_readBack_iff well⟩

/-- The text of an accepted filter has the meaning of the filter if and only if no value has a `!`
or `=` in it: texts put no backslash before these two. -/
theorem parse_shownSegments_iff {f : String} {segments : List Expr}
    (h : parseFilter f = .ok segments) :
    parseFilter (shownSegments segments) = .ok segments ↔
      ∀ e ∈ segments, ∀ m ∈ e.masks, '!' ∉ m.text ∧ '=' ∉ m.text := by
  have hwell := wellFormed_of_parseFilter h
  exact ⟨hwell.unmarked_of_parse_shown, hwell.parse_shown⟩

theorem parse_shownSegments_iff_node :
    let segments : List Expr :=
      [.apply .and [.value ⟨['A']⟩, .apply .not [.value ⟨['B']⟩]],
        .node ⟨['C']⟩ (.property ⟨['k']⟩ ⟨['.', '*']⟩)]
    parseFilter "A&!B/C[k=*]" = .ok segments ∧
      (parseFilter (shownSegments segments) = .ok segments ↔
        ∀ e ∈ segments, ∀ m ∈ e.masks, '!' ∉ m.text ∧ '=' ∉ m.text) := by
  have h : parseFilter "A&!B/C[k=*]" = .ok
      [.apply .and [.value ⟨['A']⟩, .apply .not [.value ⟨['B']⟩]],
        .node ⟨['C']⟩ (.property ⟨['k']⟩ ⟨['.', '*']⟩)] := by cbv
  exact ⟨h, parse_shownSegments_iff h⟩

/-- The text of a filter for the name `!A` is a filter for all names but `A`. -/
theorem shownSegments_escaped_not :
    parseFilter "\\!A" = .ok [.value ⟨['!', 'A']⟩] ∧
      parseFilter (shownSegments [.value ⟨['!', 'A']⟩]) = .ok [.apply .not [.value ⟨['A']⟩]] := by
  constructor <;> cbv

end PathFilter
