import PathFilter.Proofs.PathForm
import PathFilter.Proofs.RoundTrip
import Mathlib.Data.List.Forall2

namespace PathFilter

/-- The runs of characters that a piece stands for. -/
def Piece.Fills : Piece → List Char → Prop
  | .literal c, run => run = [c]
  | .wildcard, _ => True

namespace Pattern

/-- The text is one run for each piece, in order. -/
def Covers (p : Pattern) (t : List Char) : Prop :=
  ∃ runs : List (List Char), List.Forall₂ Piece.Fills p runs ∧ runs.flatten = t

theorem covers_nil_iff {t : List Char} : Covers [] t ↔ t = [] := by
  simp [Covers, eq_comm]

theorem covers_cons_iff {x : Piece} {p : Pattern} {t : List Char} :
    Covers (x :: p) t ↔ ∃ run rest, t = run ++ rest ∧ x.Fills run ∧ Covers p rest := by
  constructor
  · rintro ⟨runs, hruns, rfl⟩
    obtain ⟨run, runs, hx, hp, rfl⟩ := List.forall₂_cons_left_iff.mp hruns
    exact ⟨run, runs.flatten, rfl, hx, runs, hp, rfl⟩
  · rintro ⟨run, rest, rfl, hx, runs, hp, rfl⟩
    exact ⟨run :: runs, .cons hx hp, rfl⟩

theorem accepts_iff_covers {p : Pattern} {t : List Char} : p.accepts t = true ↔ p.Covers t := by
  induction p generalizing t with
  | nil => rw [covers_nil_iff, accepts, List.isEmpty_iff]
  | cons x p ih =>
    rw [covers_cons_iff]
    cases x with
    | literal c =>
      cases t with
      | nil => simp [accepts, Piece.Fills]
      | cons d t =>
        simp only [accepts, Bool.and_eq_true, beq_iff_eq, ih, Piece.Fills]
        constructor
        · rintro ⟨rfl, h⟩
          exact ⟨[c], t, rfl, rfl, h⟩
        · rintro ⟨run, rest, he, rfl, h⟩
          obtain ⟨rfl, rfl⟩ := List.cons.inj he
          exact ⟨rfl, h⟩
    | wildcard =>
      rw [accepts, someSuffix_iff]
      simp only [ih, Piece.Fills, true_and]

end Pattern

theorem Mask.accepts_ofPattern_iff {p : Pattern} {t : List Char} :
    (Mask.ofPattern p).accepts t = true ↔ p.Covers t := by
  rw [Mask.accepts, Mask.pattern_ofPattern, Pattern.accepts_iff_covers]

theorem parseFilter_escaped {p : Pattern} (nonempty : p ≠ []) (whole : .literal '/' ∉ p) :
    parseFilter (String.ofList p.escaped) = .ok [.value (.ofPattern p)] := by
  have fits : (Mask.ofPattern p).FitsSegment true :=
    ⟨mt (mem_encode_iff (by decide)).mp whole, fun _ => rfl⟩
  have well : WellFormedSegments [.value (.ofPattern p)] :=
    .last (.value ⟨p, nonempty, rfl⟩ fits)
  have hparse := well.parse_spell fun e _ m _ => Pattern.writes_escaped m.pattern
  simpa [filterLexemes, Expr.lexemes, Mask.pattern_ofPattern] using hparse

theorem parseFilter_escaped_property {k v : Pattern} (key : k ≠ []) (value : v ≠ []) :
    parseFilter ("T[" ++ String.ofList k.escaped ++ "=" ++ String.ofList v.escaped ++ "]") =
      .ok [.node (.ofPattern [.literal 'T']) (.property (.ofPattern k) (.ofPattern v))] := by
  have well : WellFormedSegments
      [.node (.ofPattern [.literal 'T']) (.property (.ofPattern k) (.ofPattern v))] :=
    .last (.node ⟨_, by simp, rfl⟩ ⟨by decide, fun _ => rfl⟩
      (.property ⟨k, key, rfl⟩ ⟨v, value, rfl⟩))
  refine parseFilter_iff_spells.mpr ⟨_, ?_, well.derives, well.valid⟩
  have name : SpellsValue 0 [.literal 'T'] ['T'] := .cons (.plain rfl) .nil
  have pair : Spells 1 [.value k, .mark .equals, .value v, .mark .closeBracket]
      (k.escaped ++ '=' :: (v.escaped ++ [']'])) :=
    .value key (Pattern.writes_escaped k).bracket rfl (.mark nofun
      (.value value (Pattern.writes_escaped v).bracket rfl (.mark nofun (.nil 0))))
  have node := Spells.value (by simp) name rfl (.mark (m := .openBracket) nofun pair)
  simpa [filterLexemes, Expr.lexemes, Mask.pattern_ofPattern, Mark.char] using node

/-- A filter of escaped characters and wildcards selects the texts that it describes, as the name of
a node and as a key with its value. -/
theorem selects_escaped :
    (∀ p : Pattern, p ≠ [] → .literal '/' ∉ p →
      ∃ (f : Filter) (m : Mask), Filter.ofText (String.ofList p.escaped) = .ok f ∧
        f.segments = [.value m] ∧
        ∀ (t : String) (source : PropertySource) (bag : PropertyBag), '/' ∉ t.toList →
          PropertyBag.ofSource source = .ok bag →
          ∃ b, f.selects (.text ("/" ++ t)) source = .ok b ∧ (b = true ↔ p.Covers t.toList)) ∧
    ∀ k v : Pattern, k ≠ [] → v ≠ [] →
      ∃ f : Filter, Filter.ofText
          ("T[" ++ String.ofList k.escaped ++ "=" ++ String.ofList v.escaped ++ "]") = .ok f ∧
        ∀ (source : PropertySource) (bag : PropertyBag), PropertyBag.ofSource source = .ok bag →
          ∃ b, f.selects (.text "/T") source = .ok b ∧
            (b = true ↔ ∃ key value, .pair key value ∈ bag.properties ∧
              k.Covers key.toList ∧ v.Covers value.toList) := by
  constructor
  · intro p nonempty whole
    have parsed := parseFilter_escaped nonempty whole
    refine ⟨_, _, Filter.ofText_of_parsed parsed, rfl, ?_⟩
    intro t source bag slash hbag
    refine ⟨(Mask.ofPattern p).accepts t.toList, ?_, Mask.accepts_ofPattern_iff⟩
    refine Filter.selects_eq_ok_iff.mpr ⟨bag, hbag, ?_⟩
    rw [matchPath_singleton slash]
    rfl
  · intro k v key value
    have parsed := parseFilter_escaped_property key value
    refine ⟨_, Filter.ofText_of_parsed parsed, ?_⟩
    intro source bag hbag
    refine ⟨bag.pairs.any fun entry => (Mask.ofPattern k).accepts entry.1.toList &&
      (Mask.ofPattern v).accepts entry.2.toList, ?_, ?_⟩
    · refine Filter.selects_eq_ok_iff.mpr ⟨bag, hbag, ?_⟩
      exact matchPath_singleton (t := "T") (by decide) bag
    · simp only [List.any_eq_true, Bool.and_eq_true, Mask.accepts_ofPattern_iff, Prod.exists,
        PropertyBag.mem_pairs_iff]

theorem selects_escaped_star :
    let p : Pattern := [.wildcard, .literal '*', .wildcard]
    let k : Pattern := [.literal '/', .wildcard]
    let v : Pattern := [.literal '=']
    let bag : PropertyBag := ⟨[.label "/id", .pair "/id" "="]⟩
    (p ≠ [] ∧ .literal '/' ∉ p ∧ '/' ∉ "a*\n".toList ∧
      PropertyBag.ofSource .nothing = .ok .empty ∧
      ∃ (f : Filter) (m : Mask), Filter.ofText "*\\**" = .ok f ∧ f.segments = [.value m] ∧
        ∃ b, f.selects (.text ("/" ++ "a*\n")) .nothing = .ok b ∧
          (b = true ↔ p.Covers "a*\n".toList)) ∧
    (k ≠ [] ∧ v ≠ [] ∧ PropertyBag.ofSource (.bag bag) = .ok bag ∧
      ∃ f : Filter, Filter.ofText "T[\\/*=\\=]" = .ok f ∧
        ∃ b, f.selects (.text "/T") (.bag bag) = .ok b ∧
          (b = true ↔ ∃ key value, .pair key value ∈ bag.properties ∧
            k.Covers key.toList ∧ v.Covers value.toList)) := by
  intro p k v bag
  obtain ⟨f, m, hf, hm, hselects⟩ := selects_escaped.1 p (by decide) (by decide)
  obtain ⟨g, hg, hselects'⟩ := selects_escaped.2 k v (by decide) (by decide)
  refine ⟨⟨by decide, by decide, by decide, rfl, f, m, hf, hm, ?_⟩,
    by decide, by decide, rfl, g, hg, hselects' (.bag bag) bag rfl⟩
  exact hselects "a*\n" .nothing .empty (by decide) rfl

end PathFilter
