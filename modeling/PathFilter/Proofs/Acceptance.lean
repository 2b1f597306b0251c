import PathFilter.Filter
import PathFilter.Proofs.Spelling
import PathFilter.Proofs.StackRun
import PathFilter.Proofs.Validity

namespace PathFilter

theorem parseFilter_eq_ok_iff {f : String} {segments : List Expr} :
    parseFilter f = .ok segments ↔
      readSegments f.toList = .ok segments ∧ validateSegments segments = .ok () := by
  simp only [parseFilter, bind_eq_ok_iff, mapError_eq_ok_iff]
  constructor
  · rintro ⟨read, hread, _, hvalid, h⟩
    obtain rfl := Except.ok.inj h
    exact ⟨hread, hvalid⟩
  · rintro ⟨hread, hvalid⟩
    exact ⟨segments, hread, (), hvalid, rfl⟩

/-- A text has segments if it spells lexemes of the grammar. -/
theorem readSegments_iff_spells {t : List Char} {segments : List Expr} :
    readSegments t = .ok segments ↔ ∃ l, Spells 0 l t ∧ DerivesFilter l segments := by
  constructor
  · intro h
    obtain ⟨hdangling, hderives⟩ := derives_of_readSegments h
    exact ⟨_, Lexing.spells_iff.mpr ⟨hdangling, rfl⟩, hderives⟩
  · rintro ⟨l, hspells, hderives⟩
    obtain ⟨hdangling, rfl⟩ := Lexing.spells_iff.mp hspells
    exact readSegments_of_derives hdangling hderives

/-- A filter is accepted if it spells lexemes of the grammar whose tree breaks no rule. -/
theorem parseFilter_iff_spells {f : String} {segments : List Expr} :
    parseFilter f = .ok segments ↔
      ∃ l, Spells 0 l f.toList ∧ DerivesFilter l segments ∧ ValidSegments segments := by
  rw [parseFilter_eq_ok_iff, validateSegments_iff, readSegments_iff_spells]
  simp only [← and_assoc, exists_and_right]

/-- Once a filter is read, the check of its segments decides. -/
theorem parseFilter_of_readSegments {f : String} {segments : List Expr}
    (h : readSegments f.toList = .ok segments) :
    parseFilter f =
      ((validateSegments segments).mapError .invalidFilter).map fun _ => segments := by
  simp only [parseFilter, h, Except.mapError, bind, Except.bind]
  cases validateSegments segments <;> rfl

theorem parseFilter_of_refused {f : String} {e : SyntaxError}
    (h : readSegments f.toList = .error e) : parseFilter f = .error (.malformedFilter e) := by
  simp only [parseFilter, h, Except.mapError, bind, Except.bind]

theorem Filter.valid (f : Filter) : validateSegments f.segments = .ok () :=
  (parseFilter_eq_ok_iff.mp f.parsed).2

/-- A text that cannot be read is refused for that, whatever it would say. -/
theorem parseFilter_eq_malformed_iff {f : String} {e : SyntaxError} :
    parseFilter f = .error (.malformedFilter e) ↔ readSegments f.toList = .error e := by
  refine ⟨fun h => ?_, parseFilter_of_refused⟩
  cases hread : readSegments f.toList with
  | error error =>
    rw [parseFilter_of_refused hread] at h
    exact congrArg Except.error (Failure.malformedFilter.inj (Except.error.inj h))
  | ok segments =>
    rw [parseFilter_of_readSegments hread] at h
    cases hvalid : validateSegments segments <;> rw [hvalid] at h <;> cases h

theorem parseFilter_eq_invalid_iff {f : String} {e : ValidationError} :
    parseFilter f = .error (.invalidFilter e) ↔
      ∃ segments, readSegments f.toList = .ok segments ∧ validateSegments segments = .error e := by
  constructor
  · intro h
    cases hread : readSegments f.toList with
    | error error =>
      rw [parseFilter_of_refused hread] at h
      cases h
    | ok segments =>
      rw [parseFilter_of_readSegments hread] at h
      cases hvalid : validateSegments segments with
      | error error =>
        rw [hvalid] at h
        obtain rfl := Failure.invalidFilter.inj (Except.error.inj h)
        exact ⟨segments, rfl, hvalid⟩
      | ok _ =>
        rw [hvalid] at h
        cases h
  · rintro ⟨segments, hread, hvalid⟩
    rw [parseFilter_of_readSegments hread, hvalid]
    rfl

theorem exists_of_parseFilter_error {text : String} {e : Failure}
    (h : parseFilter text = .error e) :
    (∃ error, e = .malformedFilter error) ∨ ∃ error, e = .invalidFilter error := by
  cases hread : readSegments text.toList with
  | error error =>
    rw [parseFilter_of_refused hread] at h
    exact .inl ⟨error, (Except.error.inj h).symm⟩
  | ok segments =>
    rw [parseFilter_of_readSegments hread] at h
    cases hvalid : validateSegments segments with
    | error error =>
      rw [hvalid] at h
      exact .inr ⟨error, (Except.error.inj h).symm⟩
    | ok _ =>
      rw [hvalid] at h
      cases h

end PathFilter
