import PathFilter.Proofs.Joining

namespace PathFilter

section

variable {depth : Int} {l : List Lexeme} {t : List Char}

/-- The only segment of a text with no separator around it is an expression of the grammar. -/
theorem DerivesFilter.derives_of_singleton {e : Expr} (h : DerivesFilter l [e])
    (spelled : Spells depth l t) (started : t.head? ≠ some '/')
    (ended : t.getLast? ≠ some '/') : Derives .segment .or l e := by
  generalize hsegments : [e] = segments at h
  obtain ⟨leading, trailing, -, each⟩ := h
  obtain ⟨part, rfl, rfl⟩ := List.map_eq_singleton_iff.mp hsegments.symm
  cases leading with
  | true => exact absurd spelled.head?_eq started
  | false =>
    cases trailing with
    | true => exact absurd spelled.getLast?_eq ended
    | false => simpa [optionalSeparator] using each part (by simp)

namespace Spells

theorem separator_append (h : Spells 0 l t) (leading : Bool) :
    Spells 0 (optionalSeparator leading ++ l) ((if leading then ['/'] else []) ++ t) := by
  cases leading with
  | true => exact .mark (fun _ => by decide) h
  | false => exact h

theorem append_separator (h : Spells 0 l t) (closed : opened l = 0) (trailing : Bool) :
    Spells 0 (l ++ optionalSeparator trailing) (t ++ if trailing then ['/'] else []) := by
  cases trailing with
  | true => exact h.append (.mark (by simp [closed]) (.nil _))
  | false => simpa [optionalSeparator] using h

/-- Texts that close their brackets can be written one behind the other. -/
theorem intercalate {parts : List (List Lexeme × String)}
    (each : ∀ part ∈ parts, Spells 0 part.1 part.2.toList ∧ opened part.1 = 0) :
    Spells 0 ([.mark .separator].intercalate (parts.map Prod.fst))
      (['/'].intercalate (parts.map fun part => part.2.toList)) := by
  induction parts with
  | nil => exact .nil 0
  | cons part parts ih =>
    obtain ⟨⟨head, closed⟩, tail⟩ := List.forall_mem_cons.mp each
    by_cases hparts : parts = []
    · subst hparts
      simpa using head
    · have hrest := ih tail
      rw [List.map_cons, List.map_cons, List.intercalate_cons_of_ne_nil (by simpa using hparts),
        List.intercalate_cons_of_ne_nil (by simpa using hparts), List.append_assoc,
        List.append_assoc]
      exact head.append (.mark (by simp [closed]) (by simpa [closed, Mark.depthAfter] using hrest))

end Spells

end

/-- The filter text of some segments, with a separator before or after them if it is asked for. -/
def separated (leading trailing : Bool) (texts : List String) : String :=
  (if leading then "/" else "") ++ "/".intercalate texts ++ if trailing then "/" else ""

theorem spells_separated {parts : List (List Lexeme × String)}
    (each : ∀ part ∈ parts, Spells 0 part.1 part.2.toList ∧ opened part.1 = 0)
    (leading trailing : Bool) :
    Spells 0
      (optionalSeparator leading ++ [.mark .separator].intercalate (parts.map Prod.fst) ++
        optionalSeparator trailing)
      (separated leading trailing (parts.map Prod.snd)).toList := by
  have closed : opened ([.mark .separator].intercalate (parts.map Prod.fst)) = 0 :=
    opened_intercalate rfl (List.forall_mem_map.mpr fun part hpart => (each part hpart).2)
  have hwhole := ((Spells.intercalate each).append_separator closed trailing).separator_append leading
  have htext : (separated leading trailing (parts.map Prod.snd)).toList =
      (if leading then ['/'] else []) ++ (['/'].intercalate (parts.map fun part => part.2.toList) ++
        if trailing then ['/'] else []) := by
    cases leading <;> cases trailing <;> simp [separated, Function.comp_def]
  rwa [htext, List.append_assoc]

/-- Texts of one segment each are read as a row of these segments. -/
theorem readSegments_separated {parts : List (String × Expr)} (nonempty : parts ≠ [])
    (each : ∀ part ∈ parts, readSegments part.1.toList = .ok [part.2] ∧
      part.1.toList.head? ≠ some '/' ∧ part.1.toList.getLast? ≠ some '/')
    (leading trailing : Bool) :
    readSegments (separated leading trailing (parts.map Prod.fst)).toList =
      .ok (parts.map Prod.snd) := by
  let lexemes (part : String × Expr) : List Lexeme := (Lexing.ofFilter part.1.toList).lexemes
  have hread : ∀ part ∈ parts, Spells 0 (lexemes part) part.1.toList ∧
      Derives .segment .or (lexemes part) part.2 := by
    intro part hpart
    obtain ⟨hpart, started, ended⟩ := each part hpart
    obtain ⟨hdangling, hderives⟩ := derives_of_readSegments hpart
    have hspells := Lexing.spells_iff.mpr ⟨hdangling, rfl⟩
    exact ⟨hspells, hderives.derives_of_singleton hspells started ended⟩
  have hderives := @DerivesFilter.segments leading trailing
    (parts.map fun part => (lexemes part, part.2)) (by simpa using nonempty)
    (List.forall_mem_map.mpr fun part hpart => (hread part hpart).2)
  have hspells := @spells_separated (parts.map fun part => (lexemes part, part.1))
    (List.forall_mem_map.mpr fun part hpart =>
      ⟨(hread part hpart).1, (hread part hpart).2.opened_eq_zero⟩) leading trailing
  simp only [List.map_map, Function.comp_def] at hderives hspells
  exact readSegments_iff_spells.mpr ⟨_, hspells, hderives⟩

/-- The fault of a value `**` in a segment that others follow. -/
def misplacedBelow : ValidationError := ⟨.misplacedEverythingBelow, .value .everythingBelow⟩

/-- A segment that may stand last breaks no rule before others but the one about `**`. -/
theorem Site.check_inner {s : Site} (sound : s.Sound) :
    check ⟨false, s.place, s.expr⟩ =
      if s.place = .segment ∧ s.expr = .value .everythingBelow then .error misplacedBelow
      else .ok () := by
  obtain ⟨lastSegment, place, e⟩ := s
  split
  next h =>
    obtain ⟨rfl, rfl⟩ : place = .segment ∧ e = .value .everythingBelow := h
    rfl
  next h =>
    refine (check_eq_ok_iff _).mpr ?_
    cases e with
    | value m =>
      intro hplace
      refine ⟨(sound hplace).1, fun hm => absurd ⟨hplace, ?_⟩ h⟩
      exact congrArg Expr.value (congrArg Mask.mk hm)
    | apply op es => exact sound_apply_iff.mpr (sound_apply_iff.mp sound)
    | _ => exact sound

mutual

theorem sites_eq_map : ∀ (e : Expr) (lastSegment : Bool) (place : Place) (other : Bool),
    sites other place e = (sites lastSegment place e).map fun s => ⟨other, s.place, s.expr⟩
  | .apply op es, lastSegment, place, other => by
    rw [sites, sites, List.map_cons, operandSites_eq_map es lastSegment place other]
  | .node v e, lastSegment, place, other => by
    rw [sites, sites, List.map_cons, List.map_cons, sites_eq_map e lastSegment .bracket other]
  | .value _, _, _, _ | .property _ _, _, _, _ | .always, _, _, _ | .foreign _, _, _, _ => rfl

theorem operandSites_eq_map : ∀ (es : List Expr) (lastSegment : Bool) (place : Place)
    (other : Bool), operandSites other place es =
      (operandSites lastSegment place es).map fun s => ⟨other, s.place, s.expr⟩
  | [], _, _, _ => rfl
  | e :: es, lastSegment, place, other => by
    rw [operandSites, operandSites, List.map_append, sites_eq_map e lastSegment place other,
      operandSites_eq_map es lastSegment place other]

end

theorem checkSites_inner {xs : List Site} (sound : ∀ s ∈ xs, s.Sound) :
    checkSites (xs.map fun s => ⟨false, s.place, s.expr⟩) =
      if NothingBelow xs then .ok () else .error misplacedBelow := by
  induction xs with
  | nil => rfl
  | cons s xs ih =>
    obtain ⟨head, tail⟩ := List.forall_mem_cons.mp sound
    rw [List.map_cons, checkSites, Site.check_inner head, ih tail]
    by_cases hs : s.place = .segment ∧ s.expr = .value .everythingBelow
    · have hbelow : ¬NothingBelow (s :: xs) := fun below => below s (by simp) hs.1 hs.2
      rw [if_pos hs, if_neg hbelow]
      rfl
    · have hbelow : NothingBelow (s :: xs) ↔ NothingBelow xs := by
        refine List.forall_mem_cons.trans (and_iff_right fun hplace he => hs ⟨hplace, he⟩)
      rw [if_neg hs]
      simp only [hbelow]
      rfl

theorem validateExpr_inner {e : Expr} (valid : e.Valid true .segment) :
    validateExpr false false e =
      if NothingBelow (segmentSites [e]) then .ok () else .error misplacedBelow := by
  have hinner : validateExpr false false e = checkSites (sites false .segment e) :=
    @validateExpr_eq_checkSites e false false .segment fun _ => rfl
  have hlast : validateExpr true false e = checkSites (sites true .segment e) :=
    @validateExpr_eq_checkSites e true true .segment fun _ => rfl
  have hvalid : validateExpr true false e = .ok () :=
    (@validateExpr_iff e true .segment).mpr valid
  have hsites : segmentSites [e] = sites true .segment e := List.append_nil _
  rw [hlast] at hvalid
  rw [hinner, sites_eq_map e true .segment false, hsites,
    checkSites_inner (checkSites_eq_ok_iff.mp hvalid)]

/-- Segments that are valid each by itself are valid in a row if `**` is left to the last. -/
theorem validateSegments_of_each {segments : List Expr}
    (each : ∀ e ∈ segments, e.Valid true .segment) :
    validateSegments segments =
      if ∀ e ∈ segments.dropLast, NothingBelow (segmentSites [e]) then .ok ()
      else .error misplacedBelow := by
  induction segments with
  | nil => rfl
  | cons e es ih =>
    obtain ⟨head, tail⟩ := List.forall_mem_cons.mp each
    cases es with
    | nil =>
      have hlast : validateExpr true false e = .ok () :=
        (@validateExpr_iff e true .segment).mpr head
      simp only [validateSegments, List.isEmpty_nil, hlast]
      rfl
    | cons e' es =>
      have hcons : (∀ x ∈ (e :: e' :: es).dropLast, NothingBelow (segmentSites [x])) ↔
          NothingBelow (segmentSites [e]) ∧
            ∀ x ∈ (e' :: es).dropLast, NothingBelow (segmentSites [x]) := by
        rw [List.dropLast_cons_cons]
        exact List.forall_mem_cons
      rw [validateSegments, List.isEmpty_cons, validateExpr_inner head, ih tail]
      by_cases hbelow : NothingBelow (segmentSites [e])
      · rw [if_pos hbelow]
        simp only [hcons.trans (and_iff_right hbelow)]
        rfl
      · rw [if_neg hbelow, if_neg fun h => hbelow (hcons.mp h).1]
        rfl

/-- Segments compose: a row of filters of one segment each, with a separator between them and none
needed around them, has these segments in order, unless a `**` stands before the last. -/
theorem parseFilter_separated {parts : List (String × Expr)} (nonempty : parts ≠ [])
    (each : ∀ part ∈ parts, parseFilter part.1 = .ok [part.2] ∧
      part.1.toList.head? ≠ some '/' ∧ part.1.toList.getLast? ≠ some '/')
    (leading trailing : Bool) :
    misplacedBelow.fragment = some "**" ∧
      parseFilter (separated leading trailing (parts.map Prod.fst)) =
        if ∀ part ∈ parts.dropLast, NothingBelow (segmentSites [part.2]) then
          .ok (parts.map Prod.snd)
        else .error (.invalidFilter misplacedBelow) := by
  have hread := readSegments_separated nonempty
    (fun part hpart => ⟨(parseFilter_eq_ok_iff.mp (each part hpart).1).1, (each part hpart).2⟩)
    leading trailing
  have hvalid : ∀ e ∈ parts.map Prod.snd, e.Valid true .segment := by
    refine List.forall_mem_map.mpr fun part hpart => ?_
    have h := validateSegments_iff.mp (parseFilter_eq_ok_iff.mp (each part hpart).1).2
    cases h with
    | cons head _ => exact head
  have hdecide := validateSegments_of_each hvalid
  simp only [← List.map_dropLast, List.forall_mem_map] at hdecide
  refine ⟨rfl, ?_⟩
  rw [parseFilter_of_readSegments hread, hdecide]
  split <;> rfl

theorem parseFilter_separated_below :
    let parts : List (String × Expr) :=
      [("A|(B)", .apply .or [.value ⟨['A']⟩, .value ⟨['B']⟩]),
        ("!**[k=/]", .apply .not [.node .everythingBelow (.property ⟨['k']⟩ ⟨['/']⟩)]),
        ("**", .value .everythingBelow)]
    (parts ≠ [] ∧ ∀ part ∈ parts, parseFilter part.1 = .ok [part.2] ∧
      part.1.toList.head? ≠ some '/' ∧ part.1.toList.getLast? ≠ some '/') ∧
    misplacedBelow.fragment = some "**" ∧
      parseFilter (separated true false (parts.map Prod.fst)) =
        if ∀ part ∈ parts.dropLast, NothingBelow (segmentSites [part.2]) then
          .ok (parts.map Prod.snd)
        else .error (.invalidFilter misplacedBelow) := by
  intro parts
  have nonempty : parts ≠ [] := by simp [parts]
  have each : ∀ part ∈ parts, parseFilter part.1 = .ok [part.2] ∧
      part.1.toList.head? ≠ some '/' ∧ part.1.toList.getLast? ≠ some '/' := by
    have first : parseFilter "A|(B)" =
        .ok [.apply .or [.value ⟨['A']⟩, .value ⟨['B']⟩]] := by cbv
    have second : parseFilter "!**[k=/]" =
        .ok [.apply .not [.node .everythingBelow (.property ⟨['k']⟩ ⟨['/']⟩)]] := by cbv
    have third : parseFilter "**" = .ok [.value .everythingBelow] := by cbv
    simp only [parts, List.forall_mem_cons]
    exact ⟨⟨first, by decide, by decide⟩, ⟨second, by decide, by decide⟩,
      ⟨third, by decide, by decide⟩, List.forall_mem_nil _⟩
  exact ⟨⟨nonempty, each⟩, parseFilter_separated nonempty each true false⟩

end PathFilter
