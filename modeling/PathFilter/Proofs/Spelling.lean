import PathFilter.Lexing

namespace PathFilter

/-- The ways to write one piece of a value where `depth` brackets are open. -/
inductive SpellsPiece (depth : Int) : Piece → List Char → Prop
  | escaped (c : Char) : SpellsPiece depth (.literal c) ['\\', c]
  | wildcard : SpellsPiece depth .wildcard ['*']
  | plain {c : Char} (h : Pattern.special.contains c = false) : SpellsPiece depth (.literal c) [c]
  | slash (h : 0 < depth) : SpellsPiece depth (.literal '/') ['/']

inductive SpellsValue (depth : Int) : Pattern → List Char → Prop
  | nil : SpellsValue depth [] []
  | cons {x : Piece} {p : Pattern} {t u : List Char} (head : SpellsPiece depth x t)
      (tail : SpellsValue depth p u) : SpellsValue depth (x :: p) (t ++ u)

def startsWithValue : List Lexeme → Bool
  | .value _ :: _ => true
  | _ => false

/-- The ways to write a row of lexemes. No value is empty, and no two stand side by side. -/
inductive Spells : Int → List Lexeme → List Char → Prop
  | nil (depth : Int) : Spells depth [] []
  | value {depth : Int} {p : Pattern} {l : List Lexeme} {t u : List Char} (nonempty : p ≠ [])
      (text : SpellsValue depth p t) (ended : startsWithValue l = false) (rest : Spells depth l u) :
      Spells depth (.value p :: l) (t ++ u)
  | mark {depth : Int} {m : Mark} {l : List Lexeme} {u : List Char}
      (live : m = .separator → depth ≤ 0) (rest : Spells (m.depthAfter depth) l u) :
      Spells depth (.mark m :: l) (m.char :: u)

/-- The ways to write a row of tokens, of which the first stands at an index and each of the others
where the one before it ends. -/
inductive Placed : Int → Nat → List Token → List Char → Prop
  | nil (depth : Int) (pos : Nat) : Placed depth pos [] []
  | value {depth : Int} {pos : Nat} {p : Pattern} {tokens : List Token} {t u : List Char}
      (nonempty : p ≠ []) (text : SpellsValue depth p t)
      (ended : startsWithValue (tokens.map Token.lexeme) = false)
      (rest : Placed depth (pos + t.length) tokens u) :
      Placed depth pos (⟨.value p, pos⟩ :: tokens) (t ++ u)
  | mark {depth : Int} {pos : Nat} {m : Mark} {tokens : List Token} {u : List Char}
      (live : m = .separator → depth ≤ 0) (rest : Placed (m.depthAfter depth) (pos + 1) tokens u) :
      Placed depth pos (⟨.mark m, pos⟩ :: tokens) (m.char :: u)

/-- The text of a row of lexemes settles where each of them stands. -/
theorem Spells.placed {depth : Int} {l : List Lexeme} {t : List Char} (h : Spells depth l t)
    (pos : Nat) : ∃ tokens, Placed depth pos tokens t ∧ tokens.map Token.lexeme = l := by
  induction h generalizing pos with
  | nil depth => exact ⟨[], .nil depth pos, rfl⟩
  | @value depth p l t u nonempty text ended _ ih =>
    obtain ⟨tokens, placed, rfl⟩ := ih (pos + t.length)
    exact ⟨⟨.value p, pos⟩ :: tokens, .value nonempty text ended placed, rfl⟩
  | @mark depth m l u live _ ih =>
    obtain ⟨tokens, placed, rfl⟩ := ih (pos + 1)
    exact ⟨⟨.mark m, pos⟩ :: tokens, .mark live placed, rfl⟩

def valueLexemes (p : Pattern) : List Lexeme := if p.isEmpty then [] else [.value p]

@[simp] theorem valueLexemes_nil : valueLexemes [] = [] := rfl

theorem valueLexemes_of_ne_nil {p : Pattern} (h : p ≠ []) : valueLexemes p = [.value p] := by
  cases p with
  | nil => contradiction
  | cons x p => rfl

/-- A value, which may be missing, in front of what a mark begins. -/
theorem Spells.append_value {depth : Int} {p : Pattern} {l : List Lexeme} {t u : List Char}
    (text : SpellsValue depth p t) (ended : startsWithValue l = false) (rest : Spells depth l u) :
    Spells depth (valueLexemes p ++ l) (t ++ u) := by
  by_cases hp : p = []
  · subst hp
    cases text
    exact rest
  · rw [valueLexemes_of_ne_nil hp]
    exact .value hp text ended rest

namespace Mark

theorem ofChar?_eq_none {c : Char} (h : Pattern.special.contains c = false) : ofChar? c = none := by
  simp_all [Pattern.special, ofChar?]

theorem char_of_ofChar? {c : Char} {m : Mark} (h : ofChar? c = some m) : c = m.char := by
  grind [ofChar?, char]

theorem not_special_of_ofChar? {c : Char} (hslash : c ≠ '\\') (hstar : c ≠ '*')
    (h : ofChar? c = none) : Pattern.special.contains c = false := by
  have hspecial : ∀ c ∈ Pattern.special, c = '\\' ∨ c = '*' ∨ ofChar? c ≠ none := by
    simp [Pattern.special, ofChar?]
  rw [Bool.eq_false_iff]
  intro hc
  rcases hspecial c (List.contains_iff_mem.mp hc) with hc | hc | hc
  · exact hslash hc
  · exact hstar hc
  · exact hc h

end Mark

namespace Literal

/-- The pieces of a pattern read after a literal, the first of them at an index. -/
def append (literal : Literal) (pos : Nat) (p : Pattern) : Literal :=
  match p with
  | [] => literal
  | x :: p => ⟨(literal.push pos x).start, literal.pieces ++ x :: p⟩

theorem append_push (literal : Literal) (pos next : Nat) (x : Piece) (p : Pattern) :
    (literal.push pos x).append next p = literal.append pos (x :: p) := by
  cases p <;> simp [append, push]

theorem tokens_of_empty {literal : Literal} (h : literal.pieces = []) : literal.tokens = [] := by
  simp [tokens, h]

theorem tokens_append {literal : Literal} (h : literal.pieces = []) {p : Pattern}
    (nonempty : p ≠ []) (pos : Nat) : (literal.append pos p).tokens = [⟨.value p, pos⟩] := by
  cases p with
  | nil => contradiction
  | cons x p => simp [append, push, tokens, h]

end Literal

namespace Lexing

def lexemes (x : Lexing) : List Lexeme := x.tokens.map Token.lexeme

@[simp] theorem lexemes_prepend (front : List Token) (x : Lexing) :
    (x.prepend front).lexemes = front.map Token.lexeme ++ x.lexemes := List.map_append

@[simp] theorem dangling_prepend (front : List Token) (x : Lexing) :
    (x.prepend front).dangling = x.dangling := rfl

theorem lexemes_literal (literal : Literal) :
    literal.tokens.map Token.lexeme = valueLexemes literal.pieces := by
  unfold Literal.tokens valueLexemes
  split <;> rfl

section

variable {depth : Int} {l : List Lexeme} {p : Pattern} {t u : List Char}

theorem scan_escaped (c : Char) (u : List Char) (pos : Nat) (depth : Int) (literal : Literal) :
    scan ('\\' :: c :: u) pos depth literal =
      scan u (pos + 2) depth (literal.push pos (.literal c)) := by
  rw [scan, if_pos rfl]

theorem scan_of_ne_escape {c : Char} (h : c ≠ '\\') (u : List Char) (pos : Nat) (depth : Int)
    (literal : Literal) :
    scan (c :: u) pos depth literal =
      if c = '*' then scan u (pos + 1) depth (literal.push pos .wildcard)
      else if c = '/' ∧ 0 < depth then scan u (pos + 1) depth (literal.push pos (.literal c))
      else
        match Mark.ofChar? c with
        | some m =>
          (scan u (pos + 1) (m.depthAfter depth) .none).prepend
            (literal.tokens ++ [⟨.mark m, pos⟩])
        | none => scan u (pos + 1) depth (literal.push pos (.literal c)) := by
  rw [scan.eq_def]
  exact if_neg h

theorem scan_wildcard (u : List Char) (pos : Nat) (depth : Int) (literal : Literal) :
    scan ('*' :: u) pos depth literal = scan u (pos + 1) depth (literal.push pos .wildcard) := by
  rw [scan_of_ne_escape (by decide), if_pos rfl]

theorem scan_slash (h : 0 < depth) (u : List Char) (pos : Nat) (literal : Literal) :
    scan ('/' :: u) pos depth literal =
      scan u (pos + 1) depth (literal.push pos (.literal '/')) := by
  rw [scan_of_ne_escape (by decide), if_neg (by decide), if_pos ⟨rfl, h⟩]

theorem scan_plain {c : Char} (h : Pattern.special.contains c = false) (u : List Char) (pos : Nat)
    (literal : Literal) :
    scan (c :: u) pos depth literal = scan u (pos + 1) depth (literal.push pos (.literal c)) := by
  have hescape : c ≠ '\\' := by rintro rfl; contradiction
  have hstar : c ≠ '*' := by rintro rfl; contradiction
  have hslash : ¬(c = '/' ∧ 0 < depth) := by
    rintro ⟨rfl, -⟩
    contradiction
  rw [scan_of_ne_escape hescape, if_neg hstar, if_neg hslash, Mark.ofChar?_eq_none h]

theorem scan_mark {m : Mark} (live : m = .separator → depth ≤ 0) (u : List Char) (pos : Nat)
    (literal : Literal) :
    scan (m.char :: u) pos depth literal =
      (scan u (pos + 1) (m.depthAfter depth) .none).prepend
        (literal.tokens ++ [⟨.mark m, pos⟩]) := by
  have hescape : m.char ≠ '\\' := by cases m <;> decide
  have hstar : m.char ≠ '*' := by cases m <;> decide
  have hslash : ¬(m.char = '/' ∧ 0 < depth) := by
    rintro ⟨hchar, hdepth⟩
    have hm : m = .separator := by cases m <;> first | rfl | contradiction
    have hlive := live hm
    omega
  rw [scan_of_ne_escape hescape, if_neg hstar, if_neg hslash, m.ofChar?_char]

/-- The text of a piece is added to the literal that is being read. -/
theorem scan_piece {x : Piece} (h : SpellsPiece depth x t) (u : List Char) (pos : Nat)
    (literal : Literal) :
    scan (t ++ u) pos depth literal = scan u (pos + t.length) depth (literal.push pos x) := by
  cases h with
  | escaped c => exact scan_escaped c u pos depth literal
  | wildcard => exact scan_wildcard u pos depth literal
  | plain h => exact scan_plain h u pos literal
  | slash h => exact scan_slash h u pos literal

theorem scan_value (h : SpellsValue depth p t) (u : List Char) (pos : Nat) (literal : Literal) :
    scan (t ++ u) pos depth literal =
      scan u (pos + t.length) depth (literal.append pos p) := by
  induction h generalizing pos literal with
  | nil => rfl
  | @cons x p t u' head tail ih =>
    rw [List.append_assoc, scan_piece head, ih, Literal.append_push, List.length_append,
      Nat.add_assoc]

/-- What has been read of a literal ends where a mark begins. -/
theorem scan_of_placed {tokens : List Token} {pos : Nat} (h : Placed depth pos tokens t)
    (literal : Literal)
    (hliteral : startsWithValue (tokens.map Token.lexeme) = true → literal.pieces = []) :
    scan t pos depth literal = ⟨literal.tokens ++ tokens, none⟩ := by
  induction h generalizing literal with
  | nil depth pos => simp [scan]
  | @value depth pos p tokens t u nonempty text ended _ ih =>
    have hempty : literal.pieces = [] := hliteral rfl
    rw [scan_value text, ih (literal.append pos p) (by simp [ended]),
      Literal.tokens_append hempty nonempty, Literal.tokens_of_empty hempty]
    rfl
  | @mark depth pos m tokens u live _ ih =>
    rw [scan_mark live, ih .none fun _ => rfl]
    simp [prepend, Literal.tokens, Literal.none]

theorem scan_of_spells (h : Spells depth l t) (pos : Nat) (literal : Literal)
    (hliteral : startsWithValue l = true → literal.pieces = []) :
    (scan t pos depth literal).dangling = none ∧
      (scan t pos depth literal).lexemes = valueLexemes literal.pieces ++ l := by
  obtain ⟨tokens, placed, rfl⟩ := h.placed pos
  rw [scan_of_placed placed literal hliteral]
  exact ⟨rfl, by rw [lexemes, List.map_append, lexemes_literal]⟩

/-- What a scan has read to its end: what was left of a literal, and the spelling of lexemes. -/
def Finds (t : List Char) (depth : Int) (literal : Pattern) (found : List Lexeme) : Prop :=
  ∃ p v l u, t = v ++ u ∧ SpellsValue depth p v ∧ startsWithValue l = false ∧ Spells depth l u ∧
    found = valueLexemes (literal ++ p) ++ l

theorem Finds.piece {x : Piece} {literal : Pattern} {found : List Lexeme}
    (h : Finds u depth (literal ++ [x]) found) (head : SpellsPiece depth x t) :
    Finds (t ++ u) depth literal found := by
  obtain ⟨p, v, l, u, rfl, text, ended, rest, rfl⟩ := h
  exact ⟨x :: p, t ++ v, l, u, by simp, .cons head text, ended, rest, by simp⟩

theorem Finds.spells {found : List Lexeme} (h : Finds t depth [] found) : Spells depth found t := by
  obtain ⟨p, v, l, u, rfl, text, ended, rest, rfl⟩ := h
  exact rest.append_value text ended

/-- A scan comes to the end, to a backslash that ends the text, to the text of a piece or to a mark
that is live. -/
@[elab_as_elim]
theorem scan_induction {motive : List Char → Nat → Int → Literal → Prop}
    (nil : ∀ pos depth literal, motive [] pos depth literal)
    (dangling : ∀ pos depth literal, motive ['\\'] pos depth literal)
    (piece : ∀ {depth : Int} {x : Piece} {t : List Char} (_ : SpellsPiece depth x t) (u : List Char)
      (pos : Nat) (literal : Literal), motive u (pos + t.length) depth (literal.push pos x) →
      motive (t ++ u) pos depth literal)
    (mark : ∀ {depth : Int} {m : Mark} (_ : m = .separator → depth ≤ 0) (u : List Char) (pos : Nat)
      (literal : Literal), motive u (pos + 1) (m.depthAfter depth) .none →
      motive (m.char :: u) pos depth literal)
    (t : List Char) (pos : Nat) (depth : Int) (literal : Literal) : motive t pos depth literal := by
  induction t, pos, depth, literal using scan.induct with
  | case1 pos depth literal => exact nil pos depth literal
  | case2 pos depth literal => exact dangling pos depth literal
  | case3 pos depth literal c u ih => exact piece (.escaped c) u pos literal ih
  | case4 u pos depth literal _ ih => exact piece .wildcard u pos literal ih
  | case5 c u pos depth literal _ _ hslash ih =>
    obtain ⟨rfl, hdepth⟩ := hslash
    exact piece (.slash hdepth) u pos literal ih
  | case6 c u pos depth literal _ _ hslash m hm ih =>
    obtain rfl := Mark.char_of_ofChar? hm
    refine mark ?_ u pos literal ih
    rintro rfl
    exact Int.not_lt.mp fun hdepth => hslash ⟨rfl, hdepth⟩
  | case7 c u pos depth literal hescape hstar _ hm ih =>
    exact piece (.plain (Mark.not_special_of_ofChar? hescape hstar hm)) u pos literal ih

theorem finds_of_scan (t : List Char) (pos : Nat) (depth : Int) (literal : Literal)
    (h : (scan t pos depth literal).dangling = none) :
    Finds t depth literal.pieces (scan t pos depth literal).lexemes := by
  induction t, pos, depth, literal using scan_induction with
  | nil pos depth literal =>
    exact ⟨[], [], [], [], rfl, .nil, rfl, .nil depth, by simp [scan, lexemes, lexemes_literal]⟩
  | dangling pos depth literal => cases h
  | piece head u pos literal ih =>
    rw [scan_piece head] at h ⊢
    exact (ih h).piece head
  | mark live u pos literal ih =>
    rw [scan_mark live] at h ⊢
    rw [lexemes_prepend, List.map_append, lexemes_literal]
    exact ⟨[], [], _, _, rfl, .nil, rfl, .mark live (ih h).spells, by simp⟩

/-- The tokens of a filter are the only lexemes that it spells. -/
theorem spells_iff {filter : List Char} {l : List Lexeme} :
    Spells 0 l filter ↔ (ofFilter filter).dangling = none ∧ (ofFilter filter).lexemes = l := by
  constructor
  · exact fun h => scan_of_spells h 0 .none fun _ => rfl
  · rintro ⟨hdangling, rfl⟩
    exact (finds_of_scan filter 0 0 .none hdangling).spells

/-- One more character makes a text whole that a backslash ends, and adds to its tokens only. -/
theorem scan_snoc_of_dangling (c : Char) (t : List Char) (pos : Nat) (depth : Int)
    (literal : Literal) {stop : Nat} (h : (scan t pos depth literal).dangling = some stop) :
    (scan (t ++ [c]) pos depth literal).dangling = none ∧
      (scan t pos depth literal).tokens <+: (scan (t ++ [c]) pos depth literal).tokens := by
  induction t, pos, depth, literal using scan_induction with
  | nil pos depth literal => cases h
  | dangling pos depth literal =>
    rw [List.singleton_append, scan_escaped]
    exact ⟨rfl, List.nil_prefix⟩
  | piece head u pos literal ih =>
    rw [scan_piece head] at h
    rw [List.append_assoc, scan_piece head, scan_piece head]
    exact ih h
  | mark live u pos literal ih =>
    rw [scan_mark live] at h
    rw [List.cons_append, scan_mark live, scan_mark live]
    obtain ⟨whole, hprefix⟩ := ih h
    exact ⟨whole, (List.prefix_append_right_inj _).mpr hprefix⟩

theorem placed_of_whole {filter : List Char} (whole : (ofFilter filter).dangling = none) :
    Placed 0 0 (ofFilter filter).tokens filter := by
  obtain ⟨tokens, placed, -⟩ := (spells_iff.mpr ⟨whole, rfl⟩).placed 0
  have hscan : ofFilter filter = ⟨tokens, none⟩ := scan_of_placed placed .none fun _ => rfl
  rwa [hscan]

end

end Lexing

end PathFilter
