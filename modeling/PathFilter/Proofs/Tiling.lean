import PathFilter.Proofs.Unescaped

namespace PathFilter

/-- The pieces that a part of a filter spells, from left to right: a backslash takes the character
after it literally. -/
def Pattern.spelledBy : List Char → Pattern
  | [] => []
  | '\\' :: c :: t => .literal c :: spelledBy t
  | '*' :: t => .wildcard :: spelledBy t
  | c :: t => .literal c :: spelledBy t

/-- The expression text that a part of a filter stands for: `.*` for a star, a backslash before each
reserved character, whether the filter escapes it or not. -/
def Pattern.textSpelledBy : List Char → List Char
  | [] => []
  | '\\' :: c :: t => encodePiece (.literal c) ++ textSpelledBy t
  | '*' :: t => '.' :: '*' :: textSpelledBy t
  | '/' :: t => '/' :: textSpelledBy t
  | c :: t => encodePiece (.literal c) ++ textSpelledBy t

theorem Pattern.encode_spelledBy (t : List Char) : (spelledBy t).encode = textSpelledBy t := by
  induction t using textSpelledBy.induct with
  | case1 => rfl
  | case2 c t ih => rw [spelledBy, textSpelledBy, encode_cons, ih]
  | case3 t ih =>
    rw [spelledBy, textSpelledBy, encode_cons, ih]
    rfl
  | case4 t ih =>
    rw [spelledBy.eq_4 _ _ (by simp) (by decide), textSpelledBy, encode_cons, ih]
    rfl
  | case5 c t hescape hstar hslash ih =>
    rw [spelledBy.eq_4 c t hescape hstar, textSpelledBy.eq_5 c t hescape hstar hslash, encode_cons,
      ih]

/-- Between two indices stands no mark but separators inside brackets. -/
structure Markless (t : List Char) (start stop : Nat) : Prop where
  settled : Unescaped t stop
  depth : depthAt t stop = depthAt t start
  inside : ∀ i, start ≤ i → i < stop → Unescaped t i →
    ∀ m : Mark, t[i]? = some m.char → m = .separator ∧ 0 < depthAt t i

section

variable {t u w : List Char} {c : Char} {x : Piece} {p : Pattern} {pos : Nat}

theorem getElem?_of_drop (h : t.drop pos = c :: u) : t[pos]? = some c := by
  rw [← List.head?_drop, h, List.head?_cons]

theorem drop_append_length (h : t.drop pos = w ++ u) : t.drop (pos + w.length) = u := by
  rw [← List.drop_drop, h, List.drop_left]

theorem extract_of_drop (h : t.drop pos = w ++ u) : t.extract pos (pos + w.length) = w := by
  rw [List.extract_eq_take_drop, h, Nat.add_sub_cancel_left, List.take_left]

theorem SpellsValue.spelledBy_eq {depth : Int} (h : SpellsValue depth p w) :
    Pattern.spelledBy w = p := by
  induction h with
  | nil => rfl
  | cons head _ ih =>
    cases head with
    | escaped c => simp [Pattern.spelledBy, ih]
    | wildcard => simp [Pattern.spelledBy, ih]
    | slash _ => simp [Pattern.spelledBy, ih]
    | @plain c h =>
      have hescape : c ≠ '\\' := by rintro rfl; contradiction
      have hstar : c ≠ '*' := by rintro rfl; contradiction
      rw [List.singleton_append, Pattern.spelledBy.eq_4 _ _ (by simp [hescape]) hstar, ih]

theorem SpellsValue.ne_nil {depth : Int} (h : SpellsValue depth p w) (nonempty : p ≠ []) :
    w ≠ [] := by
  cases h with
  | nil => contradiction
  | cons head _ => cases head <;> simp

namespace Markless

theorem refl (settled : Unescaped t pos) : Markless t pos pos :=
  ⟨settled, rfl, fun _ hi hlt => absurd hlt (by omega)⟩

theorem trans {mid stop : Nat} (h : Markless t pos mid) (h' : Markless t mid stop) :
    Markless t pos stop := by
  refine ⟨h'.settled, h'.depth.trans h.depth, fun i hi hlt => ?_⟩
  by_cases hmid : i < mid
  · exact h.inside i hi hmid
  · exact h'.inside i (by omega) hlt

/-- A single character that no backslash follows up on. -/
theorem single (settled : Unescaped t pos) (hc : t[pos]? = some c) (hescape : c ≠ '\\')
    (quiet : ∀ m : Mark, c = m.char → m = .separator ∧ 0 < depthAt t pos) :
    Markless t pos (pos + 1) := by
  refine ⟨(unescaped_succ_iff hc).mpr (by simp [hescape]), ?_, fun i hi hlt _ m hm => ?_⟩
  · have hopen : c ≠ '[' := fun h => nomatch (quiet .openBracket h).1
    have hclose : c ≠ ']' := fun h => nomatch (quiet .closeBracket h).1
    rw [depthAt_succ settled hc, if_neg hopen, if_neg hclose]
  · obtain rfl : i = pos := by omega
    rw [hc] at hm
    exact quiet m (Option.some.inj hm)

theorem escape {d : Char} (settled : Unescaped t pos) (hc : t[pos]? = some '\\')
    (hd : t[pos + 1]? = some d) : Markless t pos (pos + 2) := by
  have hescaped : ¬Unescaped t (pos + 1) := fun h =>
    (unescaped_succ_iff hc).mp h ⟨rfl, settled⟩
  refine ⟨(unescaped_succ_iff hd).mpr fun h => hescaped h.2, ?_, fun i hi hlt hfree m hm => ?_⟩
  · rw [depthAt_succ_of_escaped hescaped, depthAt_succ settled hc]
    simp
  · by_cases hpos : i = pos
    · subst hpos
      rw [hc] at hm
      cases m <;> simp [Mark.char] at hm
    · obtain rfl : i = pos + 1 := by omega
      exact absurd hfree hescaped

theorem of_piece (settled : Unescaped t pos) (hdrop : t.drop pos = w ++ u)
    (h : SpellsPiece (depthAt t pos) x w) : Markless t pos (pos + w.length) := by
  cases h with
  | escaped d =>
    have hd : t[pos + 1]? = some d := getElem?_of_drop (drop_append_length (w := ['\\']) hdrop)
    exact escape settled (getElem?_of_drop hdrop) hd
  | wildcard =>
    refine single settled (getElem?_of_drop hdrop) (by decide) fun m hm => ?_
    cases m <;> simp [Mark.char] at hm
  | @plain c h =>
    refine single settled (getElem?_of_drop hdrop) (by rintro rfl; contradiction) fun m hm => ?_
    subst hm
    cases m <;> contradiction
  | slash h =>
    refine single settled (getElem?_of_drop hdrop) (by decide) fun m hm => ⟨?_, h⟩
    cases m <;> simp [Mark.char] at hm ⊢

theorem of_value {depth : Int} (h : SpellsValue depth p w) {pos : Nat}
    (settled : Unescaped t pos) (hdepth : depthAt t pos = depth) (hdrop : t.drop pos = w ++ u) :
    Markless t pos (pos + w.length) := by
  induction h generalizing pos with
  | nil => exact refl settled
  | @cons x p v w head tail ih =>
    rw [List.append_assoc] at hdrop
    have hhead := of_piece settled hdrop (hdepth ▸ head)
    have htail := ih hhead.settled (hhead.depth.trans hdepth) (drop_append_length hdrop)
    rw [List.length_append, ← Nat.add_assoc]
    exact hhead.trans htail

end Markless

/-- The tokens of a text from an index on, each in the stretch that it covers. -/
inductive Tiles (t : List Char) : Nat → List Token → Prop
  | nil : Tiles t t.length []
  | mark {pos : Nat} {m : Mark} {tokens : List Token} (bare : Unescaped t pos)
      (char : t[pos]? = some m.char) (live : m = .separator → depthAt t pos ≤ 0)
      (rest : Tiles t (pos + 1) tokens) : Tiles t pos (⟨.mark m, pos⟩ :: tokens)
  | value {pos stop : Nat} {p : Pattern} {tokens : List Token} (nonempty : pos < stop)
      (bounded : stop ≤ t.length) (text : p = .spelledBy (t.extract pos stop))
      (markless : Markless t pos stop) (ended : startsWithValue (tokens.map Token.lexeme) = false)
      (rest : Tiles t stop tokens) : Tiles t pos (⟨.value p, pos⟩ :: tokens)

theorem tiles_of_placed {depth : Int} {tokens : List Token} (h : Placed depth pos tokens u)
    (hdrop : t.drop pos = u) (hpos : pos ≤ t.length) (settled : Unescaped t pos)
    (hdepth : depthAt t pos = depth) : Tiles t pos tokens := by
  induction h with
  | nil depth pos =>
    obtain rfl : pos = t.length := Nat.le_antisymm hpos (List.drop_eq_nil_iff.mp hdrop)
    exact .nil
  | @value depth pos p tokens w u nonempty text ended _ ih =>
    have markless := Markless.of_value text settled hdepth hdrop
    have bounded : pos + w.length ≤ t.length := by
      have := congrArg List.length hdrop
      simp only [List.length_drop, List.length_append] at this
      omega
    have hlength := List.length_pos_iff.mpr (text.ne_nil nonempty)
    refine Tiles.value (by omega) bounded ?_ markless ended ?_
    · rw [extract_of_drop hdrop, text.spelledBy_eq]
    · exact ih (drop_append_length hdrop) bounded markless.settled (markless.depth.trans hdepth)
  | @mark depth pos m tokens u live _ ih =>
    have hchar := getElem?_of_drop hdrop
    obtain ⟨bounded, -⟩ := List.getElem?_eq_some_iff.mp hchar
    refine .mark settled hchar (hdepth ▸ live) (ih ?_ bounded ?_ ?_)
    · exact drop_append_length (w := [m.char]) hdrop
    · exact unescaped_succ_mark hchar
    · rw [depthAt_succ_mark settled hchar, hdepth]

end

/-- Where the first of some tokens stands; without one, the end of the text. -/
def nextStart (t : List Char) : List Token → Nat
  | [] => t.length
  | token :: _ => token.pos

namespace Tiles

variable {t : List Char} {pos : Nat} {tokens : List Token}

theorem nextStart_eq (h : Tiles t pos tokens) : nextStart t tokens = pos := by
  cases h <;> rfl

theorem le_pos (h : Tiles t pos tokens) : ∀ token ∈ tokens, pos ≤ token.pos := by
  induction h with
  | nil => simp
  | @mark pos m tokens _ _ _ _ ih =>
    refine List.forall_mem_cons.mpr ⟨Nat.le_refl pos, fun token htoken => ?_⟩
    have := ih token htoken
    omega
  | @value pos stop p tokens nonempty _ _ _ _ _ ih =>
    refine List.forall_mem_cons.mpr ⟨Nat.le_refl pos, fun token htoken => ?_⟩
    have := ih token htoken
    omega

theorem increasing (h : Tiles t pos tokens) :
    tokens.Pairwise fun token later => token.pos < later.pos := by
  induction h with
  | nil => exact .nil
  | mark _ _ _ rest ih => exact .cons rest.le_pos ih
  | @value pos stop p tokens nonempty _ _ _ _ rest ih =>
    exact .cons (fun later hlater => Nat.lt_of_lt_of_le nonempty (rest.le_pos later hlater)) ih

/-- A row of tokens that tiles a text does so from each of its tokens on. -/
theorem drop {before after : List Token} (h : Tiles t pos (before ++ after)) :
    Tiles t (nextStart t after) after := by
  induction before generalizing pos with
  | nil => exact h.nextStart_eq ▸ h
  | cons token before ih =>
    cases h with
    | mark _ _ _ rest => exact ih rest
    | value _ _ _ _ _ rest => exact ih rest

/-- No token begins with an escaped character. -/
theorem unescaped_nextStart {before after : List Token} (h : Tiles t pos (before ++ after))
    (settled : Unescaped t pos) : Unescaped t (nextStart t after) := by
  induction before generalizing pos with
  | nil => exact h.nextStart_eq ▸ settled
  | cons token before ih =>
    cases h with
    | mark _ char _ rest => exact ih rest (unescaped_succ_mark char)
    | value _ _ _ markless _ rest => exact ih rest markless.settled

/-- Every index belongs to a token. -/
theorem exists_covering (h : Tiles t pos tokens) {i : Nat} (hi : pos ≤ i) (hlt : i < t.length) :
    ∃ before token after, tokens = before ++ token :: after ∧ token.pos ≤ i ∧
      i < nextStart t after := by
  induction h with
  | nil => omega
  | @mark pos m tokens _ _ _ rest ih =>
    by_cases hpos : i = pos
    · exact ⟨[], _, tokens, rfl, hi, by rw [rest.nextStart_eq]; omega⟩
    · obtain ⟨before, token, after, rfl, hle, hstop⟩ := ih (by omega)
      exact ⟨_ :: before, token, after, rfl, hle, hstop⟩
  | @value pos stop p tokens _ _ _ _ _ rest ih =>
    by_cases hstop : i < stop
    · exact ⟨[], _, tokens, rfl, hi, by rw [rest.nextStart_eq]; exact hstop⟩
    · obtain ⟨before, token, after, rfl, hle, hstop⟩ := ih (by omega)
      exact ⟨_ :: before, token, after, rfl, hle, hstop⟩

theorem mark_at {before after : List Token} {m : Mark} {at₀ : Nat}
    (h : Tiles t pos (before ++ ⟨.mark m, at₀⟩ :: after)) :
    t[at₀]? = some m.char ∧ Unescaped t at₀ ∧ nextStart t after = at₀ + 1 ∧
      (m = .separator → depthAt t at₀ ≤ 0) := by
  cases h.drop with
  | mark bare char live rest => exact ⟨char, bare, rest.nextStart_eq, live⟩

theorem value_at {before after : List Token} {p : Pattern} {at₀ : Nat}
    (h : Tiles t pos (before ++ ⟨.value p, at₀⟩ :: after)) :
    at₀ < nextStart t after ∧ nextStart t after ≤ t.length ∧
      p = .spelledBy (t.extract at₀ (nextStart t after)) ∧ Markless t at₀ (nextStart t after) ∧
      startsWithValue (after.map Token.lexeme) = false := by
  cases h.drop with
  | value nonempty bounded text markless ended rest =>
    rw [rest.nextStart_eq]
    exact ⟨nonempty, bounded, text, markless, ended⟩

end Tiles

/-- An index that belongs to a value. -/
def InValue (t : List Char) (tokens : List Token) (i : Nat) : Prop :=
  ∃ before p pos after, tokens = before ++ ⟨.value p, pos⟩ :: after ∧ pos ≤ i ∧
    i < nextStart t after

/-- How the tokens of a text divide it up. -/
structure Tiling (t : List Char) (tokens : List Token) : Prop where
  increasing : tokens.Pairwise fun token later => token.pos < later.pos
  fromStart : t ≠ [] → ∃ token, tokens.head? = some token ∧ token.pos = 0
  /-- A mark is one unescaped character, and what follows begins right after it. -/
  mark : ∀ before m pos after, tokens = before ++ ⟨.mark m, pos⟩ :: after →
    t[pos]? = some m.char ∧ Unescaped t pos ∧ nextStart t after = pos + 1
  /-- A value is spelled by all that stands between it and what follows, and so is its text. -/
  value : ∀ before p pos after, tokens = before ++ ⟨.value p, pos⟩ :: after →
    pos < nextStart t after ∧ nextStart t after ≤ t.length ∧
      p = .spelledBy (t.extract pos (nextStart t after)) ∧
      (Lexeme.value p).text = Pattern.textSpelledBy (t.extract pos (nextStart t after))
  apart : ∀ before p pos q next after,
    tokens ≠ before ++ ⟨.value p, pos⟩ :: ⟨.value q, next⟩ :: after
  markless : ∀ i, InValue t tokens i → Unescaped t i →
    ∀ m : Mark, m ≠ .separator → t[i]? ≠ some m.char
  /-- A separator is literal where more brackets have been opened than closed. -/
  separator : ∀ i, t[i]? = some '/' → Unescaped t i →
    (InValue t tokens i ↔ unescapedBefore t ']' i < unescapedBefore t '[' i)

namespace Tiles

variable {t : List Char} {tokens : List Token}

theorem markless_of_inValue {pos : Nat} (h : Tiles t pos tokens) {i : Nat}
    (hi : InValue t tokens i) (bare : Unescaped t i) {m : Mark} (hm : t[i]? = some m.char) :
    m = .separator ∧ 0 < depthAt t i := by
  obtain ⟨before, p, pos, after, rfl, hle, hlt⟩ := hi
  obtain ⟨-, -, -, markless, -⟩ := h.value_at
  exact markless.inside i hle hlt bare m hm

theorem inValue_iff_of_separator (h : Tiles t 0 tokens) {i : Nat} (hi : t[i]? = some '/')
    (bare : Unescaped t i) : InValue t tokens i ↔ 0 < depthAt t i := by
  constructor
  · intro hvalue
    exact (h.markless_of_inValue hvalue bare (m := .separator) hi).2
  · intro hdepth
    obtain ⟨hlt, -⟩ := List.getElem?_eq_some_iff.mp hi
    obtain ⟨before, ⟨lexeme, pos⟩, after, rfl, hle, hstop⟩ := h.exists_covering (Nat.zero_le i) hlt
    cases lexeme with
    | value p => exact ⟨before, p, pos, after, rfl, hle, hstop⟩
    | mark m =>
      obtain ⟨char, -, hnext, live⟩ := h.mark_at
      -- a mark covers one index, so the separator would be the mark
      obtain rfl : i = pos := by
        have hle : pos ≤ i := hle
        omega
      have hm : m = .separator := by
        rw [hi] at char
        cases m <;> simp [Mark.char] at char ⊢
      have := live hm
      omega

end Tiles

namespace Lexing

variable {t : List Char}

theorem tiles_of_whole (whole : (ofFilter t).dangling = none) : Tiles t 0 (ofFilter t).tokens :=
  tiles_of_placed (placed_of_whole whole) rfl (Nat.zero_le _) (unescaped_zero t) (depthAt_zero t)

/-- The tokens of any text are those of a text that they tile, or the first of them. -/
theorem exists_prefix_tiles (t : List Char) :
    ∃ u tokens, Tiles u 0 tokens ∧ (ofFilter t).tokens <+: tokens := by
  cases hdangling : (ofFilter t).dangling with
  | none => exact ⟨t, _, tiles_of_whole hdangling, List.prefix_rfl⟩
  | some stop =>
    obtain ⟨whole, hprefix⟩ := scan_snoc_of_dangling 'A' t 0 0 .none hdangling
    exact ⟨t ++ ['A'], _, tiles_of_whole whole, hprefix⟩

theorem increasing (t : List Char) :
    (ofFilter t).tokens.Pairwise fun token later => token.pos < later.pos := by
  obtain ⟨u, tokens, tiles, hprefix⟩ := exists_prefix_tiles t
  exact tiles.increasing.sublist hprefix.sublist

theorem pos_eq_zero_of_head {t : List Char} {token : Token} {tokens : List Token}
    (h : (ofFilter t).tokens = token :: tokens) : token.pos = 0 := by
  obtain ⟨u, _, tiles, ⟨later, rfl⟩⟩ := exists_prefix_tiles t
  rw [h] at tiles
  exact tiles.nextStart_eq

/-- The tokens of a text tile it, each value with what it spells and each mark with itself. -/
theorem tiling_of_whole (whole : (ofFilter t).dangling = none) :
    Tiling t (ofFilter t).tokens := by
  have tiles := tiles_of_whole whole
  generalize (ofFilter t).tokens = tokens at tiles
  refine ⟨tiles.increasing, ?_, ?_, ?_, ?_, ?_, ?_⟩
  · intro nonempty
    cases tokens with
    | nil => exact absurd (List.eq_nil_of_length_eq_zero tiles.nextStart_eq) nonempty
    | cons token tokens => exact ⟨token, rfl, tiles.nextStart_eq⟩
  · rintro before m pos after rfl
    obtain ⟨char, bare, hnext, -⟩ := tiles.mark_at
    exact ⟨char, bare, hnext⟩
  · rintro before p pos after rfl
    obtain ⟨nonempty, bounded, text, -, -⟩ := tiles.value_at
    refine ⟨nonempty, bounded, text, ?_⟩
    rw [← Pattern.encode_spelledBy, ← text, Lexeme.text]
  · rintro before p pos q next after rfl
    obtain ⟨-, -, -, -, ended⟩ := tiles.value_at
    contradiction
  · intro i hi bare m hm hchar
    exact hm (tiles.markless_of_inValue hi bare hchar).1
  · intro i hi bare
    rw [tiles.inValue_iff_of_separator hi bare, depthAt]
    omega

theorem tiling_of_whole_bracketed :
    let t := ['\\', '/', '*', '/', '!', 'b', '[', 'k', '=', '/', ']']
    (ofFilter t).tokens =
        [⟨.value [.literal '/', .wildcard], 0⟩, ⟨.mark .separator, 3⟩, ⟨.mark .not, 4⟩,
          ⟨.value [.literal 'b'], 5⟩, ⟨.mark .openBracket, 6⟩, ⟨.value [.literal 'k'], 7⟩,
          ⟨.mark .equals, 8⟩, ⟨.value [.literal '/'], 9⟩, ⟨.mark .closeBracket, 10⟩] ∧
      (ofFilter t).dangling = none ∧ Tiling t (ofFilter t).tokens :=
  ⟨by decide, by decide, tiling_of_whole (by decide)⟩

end Lexing

end PathFilter
