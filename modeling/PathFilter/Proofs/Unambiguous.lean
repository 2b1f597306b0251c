import PathFilter.Proofs.DanglingEscape
import PathFilter.Proofs.Tiling

namespace PathFilter

namespace Pattern

variable {w : List Char} {p : Pattern}

theorem spelledBy_eq_nil (h : spelledBy w = []) : w = [] := by
  unfold spelledBy at h
  split at h
  next => rfl
  all_goals cases h

/-- Only a star spells a wildcard, and a backslash before it makes it a literal. -/
theorem spelledBy_eq_wildcard_cons (h : spelledBy w = .wildcard :: p) :
    ∃ u, w = '*' :: u ∧ spelledBy u = p := by
  unfold spelledBy at h
  split at h
  next => cases h
  next => cases h
  next u => exact ⟨u, rfl, (List.cons.inj h).2⟩
  next => cases (List.cons.inj h).1

theorem spelledBy_eq_everythingBelow_iff : spelledBy w = everythingBelow ↔ w = ['*', '*'] := by
  constructor
  · intro h
    obtain ⟨u, rfl, hu⟩ := spelledBy_eq_wildcard_cons h
    obtain ⟨v, rfl, hv⟩ := spelledBy_eq_wildcard_cons hu
    rw [spelledBy_eq_nil hv]
  · rintro rfl
    rfl

end Pattern

theorem withoutLastValue_prefix (tokens : List Token) : withoutLastValue tokens <+: tokens := by
  unfold withoutLastValue
  split
  next => exact List.dropLast_prefix tokens
  next => exact List.prefix_rfl

/-- A value among the tokens of a text, where it stands and the part of the text that it covers: up
to the next token, or to the end. -/
def SpelledAt (t : List Char) (p : Pattern) (pos : Nat) (slice : List Char) : Prop :=
  ∃ before after, (Lexing.ofFilter t).tokens = before ++ ⟨.value p, pos⟩ :: after ∧
    slice = t.extract pos (nextStart t after)

section

variable {t : List Char} {p : Pattern} {pos : Nat} {tokens before after : List Token}

/-- No value is next to another, so none is left at the end when the last one is dropped. -/
theorem Tiles.withoutLastValue_ne (h : Tiles t 0 tokens) :
    withoutLastValue tokens ≠ before ++ [⟨.value p, pos⟩] := by
  intro hvalue
  unfold withoutLastValue at hvalue
  split at hvalue
  next q stop hlast =>
    obtain ⟨init, rfl⟩ := List.getLast?_eq_some_iff.mp hlast
    rw [List.dropLast_concat] at hvalue
    rw [hvalue, List.append_assoc, List.singleton_append] at h
    obtain ⟨-, -, -, -, ended⟩ := h.value_at
    cases ended
  next hlast =>
    rw [hvalue] at hlast
    exact hlast p pos (by simp)

/-- The tokens of a text tile it as far as they go, and a value ends where the next token begins or
the text ends. -/
theorem SpelledAt.exists_tiles {slice : List Char} (h : SpelledAt t p pos slice) :
    ∃ u rest before after, t = u ++ rest ∧ Tiles u 0 (before ++ ⟨.value p, pos⟩ :: after) ∧
      slice = u.extract pos (nextStart u after) := by
  obtain ⟨before, after, htokens, rfl⟩ := h
  cases hdangling : (Lexing.ofFilter t).dangling with
  | none =>
    have tiles := Lexing.tiles_of_whole hdangling
    rw [htokens] at tiles
    exact ⟨t, [], before, after, (List.append_nil t).symm, tiles, rfl⟩
  | some stop =>
    obtain ⟨u, rfl, -, whole, hcut⟩ := Lexing.exists_of_dangling hdangling
    have tiles := Lexing.tiles_of_whole whole
    rw [htokens] at hcut
    cases after with
    | nil => exact absurd hcut.symm tiles.withoutLastValue_ne
    | cons next after =>
      obtain ⟨later, hlater⟩ := withoutLastValue_prefix (Lexing.ofFilter u).tokens
      rw [← hcut, List.append_assoc, List.cons_append] at hlater
      rw [← hlater] at tiles
      obtain ⟨hlt, hbounded, -, -, -⟩ := tiles.value_at
      have hlt : pos < next.pos := hlt
      refine ⟨u, ['\\'], before, next :: after ++ later, rfl, tiles, ?_⟩
      have hnext : next.pos ≤ u.length := hbounded
      change (u ++ ['\\']).extract pos next.pos = u.extract pos next.pos
      rw [List.extract_eq_take_drop, List.extract_eq_take_drop,
        List.drop_append_of_le_length (by omega), List.take_append_of_le_length (by simp; omega)]

namespace SpelledAt

variable {slice : List Char}

/-- The pieces of a value are those that its part of the text spells. -/
theorem spelledBy_eq (h : SpelledAt t p pos slice) : Pattern.spelledBy slice = p := by
  obtain ⟨u, rest, before, after, rfl, tiles, rfl⟩ := h.exists_tiles
  obtain ⟨-, -, hp, -, -⟩ := tiles.value_at
  exact hp.symm

theorem unescaped (h : SpelledAt t p pos slice) : Unescaped t pos := by
  obtain ⟨u, rest, before, after, rfl, tiles, rfl⟩ := h.exists_tiles
  obtain ⟨hlt, hle, -, -, -⟩ := tiles.value_at
  have settled : Unescaped u pos := tiles.unescaped_nextStart (unescaped_zero u)
  unfold Unescaped at settled ⊢
  rwa [List.take_append_of_le_length (by omega)]

theorem unescaped_succ {c : Char} (h : SpelledAt t p pos slice) (hc : slice.head? = some c)
    (hescape : c ≠ '\\') : Unescaped t (pos + 1) := by
  obtain ⟨_, after, -, rfl⟩ := h
  rw [List.extract_eq_take_drop, List.head?_take, List.head?_drop] at hc
  split at hc
  next => cases hc
  next => exact (unescaped_succ_iff hc).mpr fun h => hescape h.1

theorem isEverythingBelow_iff (h : SpelledAt t p pos slice) :
    (Expr.value (.ofPattern p)).isEverythingBelow = true ↔ slice = ['*', '*'] := by
  rw [← Pattern.spelledBy_eq_everythingBelow_iff, h.spelledBy_eq, Expr.isEverythingBelow,
    beq_iff_eq]
  exact ⟨Mask.ofPattern_injective, congrArg Mask.ofPattern⟩

end SpelledAt

end

namespace Mask

/-- How `spell` goes through a text: what each of its steps reads, and what it writes for it. -/
def spellSteps : List Char → List (List Char × List Char)
  | [] => []
  | '.' :: '*' :: t => (['.', '*'], ['*']) :: spellSteps t
  | '\\' :: c :: t =>
    (['\\', c], if Pattern.special.contains c then ['\\', c] else [c]) :: spellSteps t
  | c :: t => ([c], [c]) :: spellSteps t

theorem read_spellSteps (t : List Char) : (spellSteps t).flatMap Prod.fst = t := by
  induction t using spellSteps.induct with
  | case1 => rfl
  | case2 t ih => simp [spellSteps, ih]
  | case3 c t ih => simp [spellSteps, ih]
  | case4 c t hstar hescape ih =>
    rw [spellSteps.eq_4 c t hstar hescape, List.flatMap_cons, ih]
    rfl

theorem written_spellSteps (t : List Char) : (spellSteps t).flatMap Prod.snd = spell t := by
  induction t using spellSteps.induct with
  | case1 => rfl
  | case2 t ih => simp [spellSteps, spell, ih]
  | case3 c t ih =>
    simp only [spellSteps, spell, List.flatMap_cons, ih]
    split <;> rfl
  | case4 c t hstar hescape ih =>
    rw [spellSteps.eq_4 c t hstar hescape, spell.eq_4 c t hstar hescape, List.flatMap_cons, ih]
    rfl

/-- One step reads one piece, whatever follows it. -/
theorem spellSteps_piece (x : Piece) (t : List Char) :
    spellSteps (Pattern.encodePiece x ++ t) =
      (Pattern.encodePiece x, Pattern.showPiece x) :: spellSteps t := by
  cases x with
  | wildcard => rfl
  | literal c =>
    cases h : Pattern.reserved.contains c with
    | true =>
      simp only [Pattern.encodePiece, Pattern.showPiece, h, ↓reduceIte, Bool.true_and,
        List.cons_append, List.nil_append, spellSteps]
    | false =>
      have hdot : c ≠ '.' := Pattern.ne_of_not_reserved h rfl
      have hescape : c ≠ '\\' := Pattern.ne_of_not_reserved h rfl
      simp only [Pattern.encodePiece, Pattern.showPiece, h, Bool.false_eq_true, ↓reduceIte,
        Bool.false_and, List.cons_append, List.nil_append]
      exact spellSteps.eq_4 c t (fun _ he _ => hdot he) fun _ _ he _ => hescape he

theorem spellSteps_encode (p : Pattern) :
    spellSteps p.encode = p.map fun x => (Pattern.encodePiece x, Pattern.showPiece x) := by
  induction p with
  | nil => rfl
  | cons x p ih => rw [Pattern.encode_cons, spellSteps_piece, ih, List.map_cons]

end Mask

/-- An encoded value is the code of one list of pieces only, so no literal is read as a wildcard.
Values have the same text just when the parts of the texts that they cover spell the same pieces,
and are the same token when they also stand at the same index. A value is `**` just when it covers
two unescaped stars, and what is shown of a value is written piece by piece, each step of the
renderer reading the code of one of them. -/
theorem Pattern.encode_unambiguous :
    (∀ p q : Pattern, p.encode = q.encode → p = q) ∧
    (∀ t u p q i j v w, SpelledAt t p i v → SpelledAt u q j w →
      ((Lexeme.value p).text = (Lexeme.value q).text ↔ spelledBy v = spelledBy w) ∧
      ((⟨.value p, i⟩ : Token) = ⟨.value q, j⟩ ↔ spelledBy v = spelledBy w ∧ i = j)) ∧
    (∀ t p i w, SpelledAt t p i w →
      ((Expr.value (.ofPattern p)).isEverythingBelow = true ↔
        w = ['*', '*'] ∧ Unescaped t i ∧ Unescaped t (i + 1))) ∧
    (∀ p : Pattern, Mask.spellSteps p.encode = p.map fun x => (encodePiece x, showPiece x)) ∧
    ∀ m : Mask, (Mask.spellSteps m.text).flatMap Prod.fst = m.text ∧
      (Mask.spellSteps m.text).flatMap Prod.snd = m.shown := by
  have injective : ∀ p q : Pattern, p.encode = q.encode → p = q := fun p q h =>
    Mask.ofPattern_injective (congrArg Mask.mk h)
  refine ⟨injective, ?_, ?_, Mask.spellSteps_encode, fun m =>
    ⟨Mask.read_spellSteps m.text, Mask.written_spellSteps m.text⟩⟩
  · intro t u p q i j v w hv hw
    rw [hv.spelledBy_eq, hw.spelledBy_eq, Token.mk.injEq, Lexeme.value.injEq]
    exact ⟨⟨injective p q, fun h => by rw [h]⟩, Iff.rfl⟩
  · intro t p i w h
    rw [h.isEverythingBelow_iff]
    constructor
    · rintro rfl
      exact ⟨rfl, h.unescaped, h.unescaped_succ rfl (by decide)⟩
    · exact fun hstars => hstars.1

theorem Pattern.encode_unambiguous_escaped :
    let t := ['!', '*', '*']
    let u := ['\\', '.', '*', '|', '\\']
    SpelledAt t [.wildcard, .wildcard] 1 ['*', '*'] ∧
      SpelledAt u [.literal '.', .wildcard] 0 ['\\', '.', '*'] ∧
      (Lexeme.value [.wildcard, .wildcard]).text ≠ (Lexeme.value [.literal '.', .wildcard]).text ∧
      (Expr.value (.ofPattern [.wildcard, .wildcard])).isEverythingBelow = true ∧
      ¬(Expr.value (.ofPattern [.literal '.', .wildcard])).isEverythingBelow = true ∧
      Mask.spellSteps ['\\', '.', '.', '*'] = [(['\\', '.'], ['.']), (['.', '*'], ['*'])] := by
  have stars : SpelledAt ['!', '*', '*'] [.wildcard, .wildcard] 1 ['*', '*'] :=
    ⟨[⟨.mark .not, 0⟩], [], by decide, rfl⟩
  have escaped : SpelledAt ['\\', '.', '*', '|', '\\'] [.literal '.', .wildcard] 0
      ['\\', '.', '*'] := ⟨[], [⟨.mark .or, 3⟩], by decide, rfl⟩
  obtain ⟨-, sameText, below, steps, -⟩ := Pattern.encode_unambiguous
  refine ⟨stars, escaped, ?_, (below _ _ _ _ stars).mpr (by decide), ?_,
    steps [.literal '.', .wildcard]⟩
  · rw [ne_eq, (sameText _ _ _ _ _ _ _ _ stars escaped).1]
    decide
  · rw [below _ _ _ _ escaped]
    decide

/-- Both values of `A&A` spell the same piece, at two indices. -/
theorem Pattern.tokens_differ : ¬ ∀ t p q i j v w, SpelledAt t p i v → SpelledAt t q j w →
    ((⟨.value p, i⟩ : Token) = ⟨.value q, j⟩ ↔ spelledBy v = spelledBy w) := by
  intro same
  have first : SpelledAt ['A', '&', 'A'] [.literal 'A'] 0 ['A'] :=
    ⟨[], [⟨.mark .and, 1⟩, ⟨.value [.literal 'A'], 2⟩], by decide, rfl⟩
  have second : SpelledAt ['A', '&', 'A'] [.literal 'A'] 2 ['A'] :=
    ⟨[⟨.value [.literal 'A'], 0⟩, ⟨.mark .and, 1⟩], [], by decide, rfl⟩
  cases (same _ _ _ _ _ _ _ first second).mpr rfl

end PathFilter
