import PathFilter.Proofs.Traversal

namespace PathFilter

/-- An expression where it stands in a row of segments. -/
structure Site where
  lastSegment : Bool
  place : Place
  expr : Expr

mutual

/-- The expressions of a tree, each before its parts, and the parts from left to right. The value of
a node stands where the node stands, and the filter of a node inside the bracket. -/
def sites (lastSegment : Bool) (place : Place) : Expr → List Site
  | .apply op es => ⟨lastSegment, place, .apply op es⟩ :: operandSites lastSegment place es
  | .node v e =>
    ⟨lastSegment, place, .node v e⟩ :: ⟨lastSegment, place, .value v⟩ ::
      sites lastSegment .bracket e
  | e => [⟨lastSegment, place, e⟩]

def operandSites (lastSegment : Bool) (place : Place) : List Expr → List Site
  | [] => []
  | e :: es => sites lastSegment place e ++ operandSites lastSegment place es

end

theorem operandSites_eq_flatMap (lastSegment : Bool) (place : Place) (es : List Expr) :
    operandSites lastSegment place es = es.flatMap (sites lastSegment place) := by
  induction es with
  | nil => rfl
  | cons e es ih => simp [operandSites, ih]

/-- The expressions of all segments, from left to right. -/
def segmentSites : List Expr → List Site
  | [] => []
  | e :: es => sites es.isEmpty .segment e ++ segmentSites es

namespace Site

/-- The rule for an expression where it stands, whatever its parts are. -/
def Sound (s : Site) : Prop :=
  match s.expr with
  | .apply .not es => es.length = 1
  | .apply _ es => 2 ≤ es.length
  | .value m =>
    s.place = .segment → '/' ∉ m.text ∧ (m.text = ['.', '*', '.', '*'] → s.lastSegment = true)
  | .property _ _ => s.place = .bracket
  | .node _ _ => s.place = .segment
  | .always => True
  | .foreign _ => False

/-- Checks an expression but none of its parts. -/
def check : Site → Except ValidationError Unit
  | ⟨_, _, .apply op es⟩ =>
    if op.admits es.length then .ok () else .error ⟨.operandCount op es.length, .apply op es⟩
  | ⟨lastSegment, .segment, .value m⟩ => validateSegmentValue lastSegment m
  | ⟨_, .segment, .property k v⟩ => .error ⟨.propertyOutsideBracket, .property k v⟩
  | ⟨_, .bracket, .node v e⟩ => .error ⟨.nestedBracket, .node v e⟩
  | ⟨_, _, .foreign f⟩ => .error ⟨.foreignKind f.name, .foreign f⟩
  | _ => .ok ()

theorem sound_apply_iff {lastSegment : Bool} {place : Place} {op : Operator} {es : List Expr} :
    Sound ⟨lastSegment, place, .apply op es⟩ ↔ op.admits es.length = true := by
  cases op with
  | not => exact beq_iff_eq.symm
  | and => exact (decide_eq_true_iff (p := 2 ≤ es.length)).symm
  | or => exact (decide_eq_true_iff (p := 2 ≤ es.length)).symm

theorem check_eq_ok_iff (s : Site) : s.check = .ok () ↔ s.Sound := by
  obtain ⟨lastSegment, place, e⟩ := s
  cases e with
  | apply op es =>
    rw [sound_apply_iff]
    cases count : op.admits es.length <;> simp [check, count]
  | value m =>
    cases place with
    | segment =>
      refine validateSegmentValue_iff.trans ⟨fun fits _ => ⟨fits.whole, fun hm => ?_⟩, fun h => ?_⟩
      · exact fits.below (congrArg Mask.mk hm)
      · obtain ⟨whole, below⟩ := h rfl
        exact ⟨whole, fun hm => below (congrArg Mask.text hm)⟩
    | bracket => simp [check, Sound]
  | property k v => cases place <;> simp [check, Sound]
  | node v e => cases place <;> simp [check, Sound]
  | always => simp [check, Sound]
  | foreign f => simp [check, Sound]

/-- A fault is laid to the expression itself, and only a foreign kind has no text. -/
theorem fragment_of_check {s : Site} {error : ValidationError} (h : s.check = .error error) :
    error.fragment = if s.expr.isForeign then none else some s.expr.text := by
  obtain ⟨lastSegment, place, e⟩ := s
  cases e with
  | apply op es =>
    simp only [check] at h
    split at h
    · contradiction
    · cases h
      simp [ValidationError.fragment, Expr.isForeign]
  | value m =>
    cases place with
    | segment =>
      simp only [check, validateSegmentValue] at h
      split at h
      · cases h
        simp [ValidationError.fragment, Expr.isForeign]
      · split at h
        · cases h
          simp [ValidationError.fragment, Expr.isForeign]
        · contradiction
    | bracket => contradiction
  | property k v =>
    cases place with
    | segment =>
      cases h
      simp [ValidationError.fragment, Expr.isForeign]
    | bracket => contradiction
  | node v e =>
    cases place with
    | segment => contradiction
    | bracket =>
      cases h
      simp [ValidationError.fragment, Expr.isForeign]
  | always => contradiction
  | foreign f =>
    cases h
    simp [ValidationError.fragment, Expr.isForeign]

end Site

/-- Checks expressions one by one, up to the first that breaks its rule. -/
def checkSites : List Site → Except ValidationError Unit
  | [] => .ok ()
  | s :: xs => do
    s.check
    checkSites xs

theorem checkSites_append (xs ys : List Site) :
    checkSites (xs ++ ys) = (do checkSites xs; checkSites ys) := by
  induction xs with
  | nil => rfl
  | cons s xs ih =>
    rw [List.cons_append, checkSites, checkSites, ih]
    cases s.check <;> rfl

theorem checkSites_eq_ok_iff {xs : List Site} :
    checkSites xs = .ok () ↔ ∀ s ∈ xs, s.Sound := by
  induction xs with
  | nil => exact ⟨fun _ => nofun, fun _ => rfl⟩
  | cons s xs ih =>
    rw [checkSites, bind_eq_ok_iff, List.forall_mem_cons, ← s.check_eq_ok_iff, ← ih]
    exact ⟨fun ⟨_, head, tail⟩ => ⟨head, tail⟩, fun ⟨head, tail⟩ => ⟨(), head, tail⟩⟩

theorem checkSites_eq_mapM (xs : List Site) :
    checkSites xs = (xs.mapM Site.check).map fun _ => () := by
  induction xs with
  | nil => rfl
  | cons s xs ih =>
    rw [checkSites, ih, List.mapM_cons]
    cases s.check with
    | error _ => rfl
    | ok _ => cases xs.mapM Site.check <;> rfl

theorem exists_of_checkSites {xs : List Site} {error : ValidationError}
    (h : checkSites xs = .error error) :
    ∃ before s after, xs = before ++ s :: after ∧ (∀ t ∈ before, t.Sound) ∧
      s.check = .error error := by
  rw [checkSites_eq_mapM] at h
  obtain ⟨before, s, after, hxs, good, hs⟩ := exists_of_mapM_error (map_eq_error_iff.mp h)
  refine ⟨before, s, after, hxs, fun t ht => ?_, hs⟩
  obtain ⟨_, hok⟩ := good t ht
  exact t.check_eq_ok_iff.mp hok

theorem checkSites_singleton (s : Site) : checkSites [s] = s.check := by
  rw [checkSites]
  cases s.check <;> rfl

mutual

/-- The check of a tree is the check of its expressions in order. Inside a bracket nothing depends on
the segment. -/
theorem validateExpr_eq_checkSites : ∀ (e : Expr) {given lastSegment : Bool} {place : Place},
    (place = .segment → given = lastSegment) →
      validateExpr given place.inBracket e = checkSites (sites lastSegment place e)
  | .value m, given, lastSegment, .segment, h => by
    obtain rfl := h rfl
    exact (checkSites_singleton ⟨given, .segment, .value m⟩).symm
  | .value m, _, _, .bracket, _ => rfl
  | .apply op es, given, lastSegment, place, h => by
    rw [validateExpr, sites, checkSites, ← validateOperands_eq_checkSites es h, Site.check]
    split <;> rfl
  | .property k v, _, _, .segment, _ => rfl
  | .property k v, _, _, .bracket, _ => rfl
  | .node v e, given, lastSegment, .segment, h => by
    obtain rfl := h rfl
    have filter : validateExpr true true e = checkSites (sites given .bracket e) :=
      @validateExpr_eq_checkSites e true given .bracket nofun
    rw [sites, checkSites, checkSites, ← filter]
    rfl
  | .node v e, _, _, .bracket, _ => rfl
  | .always, _, _, .segment, _ => rfl
  | .always, _, _, .bracket, _ => rfl
  | .foreign _, _, _, .segment, _ => rfl
  | .foreign _, _, _, .bracket, _ => rfl

theorem validateOperands_eq_checkSites : ∀ (es : List Expr) {given lastSegment : Bool}
    {place : Place}, (place = .segment → given = lastSegment) →
      validateOperands given place.inBracket es = checkSites (operandSites lastSegment place es)
  | [], _, _, _, _ => rfl
  | e :: es, given, lastSegment, place, h => by
    rw [validateOperands, operandSites, checkSites_append, validateExpr_eq_checkSites e h,
      validateOperands_eq_checkSites es h]

end

theorem validateSegments_eq_checkSites (segments : List Expr) :
    validateSegments segments = checkSites (segmentSites segments) := by
  induction segments with
  | nil => rfl
  | cons e es ih =>
    have head : validateExpr es.isEmpty false e = checkSites (sites es.isEmpty .segment e) :=
      @validateExpr_eq_checkSites e es.isEmpty es.isEmpty .segment fun _ => rfl
    rw [validateSegments, segmentSites, checkSites_append, ih, head]

/-- Segments are accepted if every expression in them keeps the rule for its place. Otherwise the
error shows the first expression that does not, unless that one is of a foreign kind. -/
theorem validateSegments_firstViolation (segments : List Expr) :
    (validateSegments segments = .ok () ↔ ∀ s ∈ segmentSites segments, s.Sound) ∧
      ((¬∀ s ∈ segmentSites segments, s.Sound) →
        ∃ before s after error, segmentSites segments = before ++ s :: after ∧
          (∀ t ∈ before, t.Sound) ∧ ¬s.Sound ∧ validateSegments segments = .error error ∧
          error.fragment = if s.expr.isForeign then none else some s.expr.text) := by
  rw [validateSegments_eq_checkSites]
  refine ⟨checkSites_eq_ok_iff, fun unsound => ?_⟩
  cases h : checkSites (segmentSites segments) with
  | ok _ => exact absurd (checkSites_eq_ok_iff.mp h) unsound
  | error error =>
    obtain ⟨before, s, after, hsites, sound, hs⟩ := exists_of_checkSites h
    refine ⟨before, s, after, error, hsites, sound, ?_, rfl, s.fragment_of_check hs⟩
    intro hsound
    rw [s.check_eq_ok_iff.mpr hsound] at hs
    contradiction

theorem validateSegments_firstViolation_nested :
    let segments : List Expr :=
      [.node ⟨['a']⟩ (.apply .and [.property ⟨['k']⟩ ⟨['/']⟩, .node ⟨['b']⟩ .always]),
        .value ⟨['c', '/']⟩]
    (¬∀ s ∈ segmentSites segments, s.Sound) ∧
      ∃ before s after error, segmentSites segments = before ++ s :: after ∧
        (∀ t ∈ before, t.Sound) ∧ ¬s.Sound ∧ validateSegments segments = .error error ∧
        error.fragment = if s.expr.isForeign then none else some s.expr.text := by
  intro segments
  have unsound : ¬∀ s ∈ segmentSites segments, s.Sound := fun h =>
    absurd ((validateSegments_firstViolation segments).1.mpr h) nofun
  exact ⟨unsound, (validateSegments_firstViolation segments).2 unsound⟩

end PathFilter
