import PathFilter.Proofs.Reading

namespace PathFilter

namespace Reading

variable {f : Frame} {os : List Opening} {x y : LastLexeme} {l : List Lexeme} {operand e : Expr}

theorem step_value (hx : x.operand? = none) (p : Pattern) :
    step ⟨f, os, x⟩ (.value p) = some ⟨f, os, .value p⟩ :=
  expecting_eq_some_iff.mpr ⟨hx, rfl⟩

theorem step_not (hx : x.operand? = none) :
    step ⟨f, os, x⟩ (.mark .not) = some ⟨f.addTight .not, os, .mark⟩ :=
  expecting_eq_some_iff.mpr ⟨hx, rfl⟩

theorem step_openGroup (hx : x.operand? = none) :
    step ⟨f, os, x⟩ (.mark .openGroup) = some ⟨.empty, .group f :: os, .mark⟩ :=
  expecting_eq_some_iff.mpr ⟨hx, rfl⟩

theorem step_and (hy : y.operand? = some operand) (closed : f.unary operand = some e) :
    step ⟨f, os, y⟩ (.mark .and) = some ⟨f.addFactor e, os, .mark⟩ :=
  withOperand_eq_some_iff.mpr ⟨operand, hy, by simp [closed]⟩

theorem step_or (hy : y.operand? = some operand) (closed : f.conjunction operand = some e) :
    step ⟨f, os, y⟩ (.mark .or) = some ⟨f.addAlternative e, os, .mark⟩ :=
  withOperand_eq_some_iff.mpr ⟨operand, hy, by simp [closed]⟩

theorem step_equals (hy : y.operand? = some operand) (hplace : Opening.place os = .bracket) :
    step ⟨f, os, y⟩ (.mark .equals) = some ⟨f.addTight (.equals operand), os, .mark⟩ := by
  have hin : inBracket ⟨f, os, y⟩ = true := by
    by_contra hout
    simp only [Opening.place, if_neg (show ¬os.any Opening.isBracket = true from hout)] at hplace
    cases hplace
  exact withOperand_eq_some_iff.mpr ⟨operand, hy, if_pos hin⟩

theorem step_closeGroup {outer : Frame} (hy : y.operand? = some operand)
    (closed : f.enclosed operand = some e) :
    step ⟨f, .group outer :: os, y⟩ (.mark .closeGroup) = some ⟨outer, os, .compound e⟩ :=
  withOperand_eq_some_iff.mpr ⟨operand, hy, by simp [onCloseGroup, closed]⟩

theorem step_openBracket (p : Pattern) (hplace : Opening.place os = .segment) :
    step ⟨f, os, .value p⟩ (.mark .openBracket) = some ⟨.empty, .bracket f p :: os, .mark⟩ := by
  have hout : ¬inBracket ⟨f, os, .value p⟩ = true := by
    intro hin
    simp only [Opening.place, if_pos (show os.any Opening.isBracket = true from hin)] at hplace
    cases hplace
  exact if_neg hout

theorem step_closeBracket {outer : Frame} {p : Pattern} (hy : y.operand? = some operand)
    (closed : f.enclosed operand = some e) :
    step ⟨f, .bracket outer p :: os, y⟩ (.mark .closeBracket) =
      some ⟨outer, os, .compound (.node (.ofPattern p) e)⟩ :=
  withOperand_eq_some_iff.mpr ⟨operand, hy, by simp [onCloseBracket, closed]⟩

theorem step_separator (hy : y.operand? = some operand) (closed : f.disjunction operand = some e) :
    step ⟨f, [], y⟩ (.mark .separator) = some ⟨f.addSegment e, [], .separator⟩ := by
  simp [step, onSeparator, inGroup, hy, closed]

theorem finish_operand (hy : y.operand? = some operand) (closed : f.disjunction operand = some e) :
    finish ⟨f, [], y⟩ = some (e :: f.segments).reverse := by
  simp [finish, hy, closed]

/-- After `l` an operand is left that `close` makes the tree `e`, and what `add` keeps of the frame
is as it was. -/
def Completes (close : Frame → Expr → Option Expr) (add : Frame → Expr → Frame)
    (os : List Opening) (f : Frame) (l : List Lexeme) (e : Expr) : Prop :=
  ∀ x : LastLexeme, x.operand? = none →
    ∃ g y operand, y.operand? = some operand ∧ close g operand = some e ∧ add g = add f ∧
      run ⟨f, os, x⟩ l = some ⟨g, os, y⟩

/-- A chain is read part by part. The mark `m` closes the part before it with `close` and hands it
to `add`; the last part is left open. -/
theorem run_chain {m : Mark} {close : Frame → Expr → Option Expr} {add : Frame → Expr → Frame}
    {fresh : Frame → Prop} (hy : y.operand? = none)
    (hstep : ∀ f z operand e, z.operand? = some operand → close f operand = some e →
      step ⟨f, os, z⟩ (.mark m) = some ⟨add f e, os, y⟩)
    (hfresh : ∀ f e, fresh (add f e)) {parts : List (List Lexeme × Expr)} (nonempty : parts ≠ [])
    (each : ∀ part ∈ parts, ∀ f, fresh f → Completes close add os f part.1 part.2)
    (hf : fresh f) (hx : x.operand? = none) :
    ∃ earlier last g z operand, parts.map Prod.snd = earlier ++ [last] ∧
      z.operand? = some operand ∧ close g operand = some last ∧
      add g = add (earlier.foldl add f) ∧
      run ⟨f, os, x⟩ ([.mark m].intercalate (parts.map Prod.fst)) = some ⟨g, os, z⟩ := by
  induction parts generalizing f x with
  | nil => contradiction
  | cons part parts ih =>
    obtain ⟨g, z, operand, hz, closed, hadd, hrun⟩ := each part (by simp) f hf x hx
    by_cases hparts : parts = []
    · subst hparts
      exact ⟨[], part.2, g, z, operand, rfl, hz, closed, hadd, by simpa using hrun⟩
    · obtain ⟨earlier, last, g', z', operand', hmap, hz', closed', hadd', hrun'⟩ :=
        ih hparts (fun part hpart => each part (by simp [hpart])) (hfresh f part.2) hy
      refine ⟨part.2 :: earlier, last, g', z', operand', by simp [hmap], hz', closed', hadd', ?_⟩
      rw [List.map_cons, List.intercalate_cons_of_ne_nil (by simpa using hparts),
        List.append_assoc, run_append, hrun]
      change ((step ⟨g, os, z⟩ (.mark m)).bind fun r => r.run _) = _
      rw [hstep g z operand part.2 hz closed, hadd]
      exact hrun'

end Reading

namespace Frame

theorem foldl_addFactor {f : Frame} (hf : f.tights = []) (es : List Expr) :
    es.foldl addFactor f = { f with factors := es.reverse ++ f.factors } := by
  induction es generalizing f with
  | nil => rfl
  | cons e es ih =>
    rw [List.foldl_cons, ih rfl]
    simp [addFactor, hf]

theorem foldl_addAlternative {f : Frame} (hf : f.factors = [] ∧ f.tights = []) (es : List Expr) :
    es.foldl addAlternative f = { f with alternatives := es.reverse ++ f.alternatives } := by
  induction es generalizing f with
  | nil => rfl
  | cons e es ih =>
    rw [List.foldl_cons, ih ⟨rfl, rfl⟩]
    simp [addAlternative, hf]

theorem foldl_addSegment (leading : Bool) (segments es : List Expr) :
    es.foldl addSegment ⟨leading, segments, [], [], []⟩ =
      ⟨leading, es.reverse ++ segments, [], [], []⟩ := by
  induction es generalizing segments with
  | nil => rfl
  | cons e es ih => simp [addSegment, ih]

end Frame

namespace Reading

variable {f : Frame} {os : List Opening} {x y : LastLexeme} {l : List Lexeme} {e : Expr}

/-- What reading a text of some level does, from a frame that holds nothing of this level. -/
def Reads : Level → List Opening → List Lexeme → Expr → Prop
  | .or, os, l, e => ∀ f : Frame, f.alternatives = [] → f.factors = [] → f.tights = [] →
      Completes Frame.disjunction Frame.addSegment os f l e
  | .and, os, l, e => ∀ f : Frame, f.factors = [] → f.tights = [] →
      Completes Frame.conjunction Frame.addAlternative os f l e
  | .unary, os, l, e => ∀ f x, x.operand? = none →
      ∃ ts y operand, y.operand? = some operand ∧
        ts.foldlM (fun e (t : Tight) => t.apply e) operand = some e ∧
        run ⟨f, os, x⟩ l = some ⟨{ f with tights := ts ++ f.tights }, os, y⟩

theorem reads_and {parts : List (List Lexeme × Expr)} (nonempty : parts ≠ [])
    (each : ∀ part ∈ parts, Reads .unary os part.1 part.2) :
    Reads .and os ([.mark .and].intercalate (parts.map Prod.fst))
      (.chain .and (parts.map Prod.snd)) := by
  intro f hfactors htights x hx
  have hpart : ∀ part ∈ parts, ∀ f : Frame, f.tights = [] →
      Completes Frame.unary Frame.addFactor os f part.1 part.2 := by
    intro part hpart f hf x hx
    obtain ⟨ts, y, operand, hy, applied, hrun⟩ := each part hpart f x hx
    refine ⟨{ f with tights := ts ++ f.tights }, y, operand, hy, ?_, rfl, hrun⟩
    simpa [Frame.unary, hf] using applied
  obtain ⟨earlier, last, g, z, operand, hmap, hz, closed, hadd, hrun⟩ :=
    run_chain (y := .mark) rfl (fun _ _ _ _ hz closed => step_and hz closed) (fun _ _ => rfl)
      nonempty hpart htights hx
  rw [Frame.foldl_addFactor htights] at hadd
  obtain ⟨hleading, hsegments, halternatives, hg, -⟩ := Frame.mk.inj (congrFun hadd last)
  refine ⟨g, z, operand, hz, ?_, ?_, hrun⟩
  · have hg : g.factors = earlier.reverse := by simpa [hfactors] using hg
    simp [Frame.conjunction, closed, hg, hmap]
  · funext e
    simp [Frame.addAlternative, hleading, hsegments, halternatives]

theorem reads_or {parts : List (List Lexeme × Expr)} (nonempty : parts ≠ [])
    (each : ∀ part ∈ parts, Reads .and os part.1 part.2) :
    Reads .or os ([.mark .or].intercalate (parts.map Prod.fst))
      (.chain .or (parts.map Prod.snd)) := by
  intro f halternatives hfactors htights x hx
  have hpart : ∀ part ∈ parts, ∀ f : Frame, f.factors = [] ∧ f.tights = [] →
      Completes Frame.conjunction Frame.addAlternative os f part.1 part.2 :=
    fun part hpart f hf => each part hpart f hf.1 hf.2
  obtain ⟨earlier, last, g, z, operand, hmap, hz, closed, hadd, hrun⟩ :=
    run_chain (y := .mark) rfl (fun _ _ _ _ hz closed => step_or hz closed)
      (fun _ _ => ⟨rfl, rfl⟩) nonempty hpart ⟨hfactors, htights⟩ hx
  rw [Frame.foldl_addAlternative ⟨hfactors, htights⟩] at hadd
  obtain ⟨hleading, hsegments, hg, -, -⟩ := Frame.mk.inj (congrFun hadd last)
  refine ⟨g, z, operand, hz, ?_, ?_, hrun⟩
  · have hg : g.alternatives = earlier.reverse := by simpa [halternatives] using hg
    simp [Frame.disjunction, closed, hg, hmap]
  · funext e
    simp [Frame.addSegment, hleading, hsegments]

/-- From an empty frame a text of the loosest level is complete before a closer. -/
theorem Reads.enclosed (h : Reads .or os l e) (hx : x.operand? = none) :
    ∃ g y operand, y.operand? = some operand ∧ g.enclosed operand = some e ∧
      run ⟨.empty, os, x⟩ l = some ⟨g, os, y⟩ := by
  obtain ⟨g, y, operand, hy, closed, hadd, hrun⟩ := h .empty rfl rfl rfl x hx
  have hseparators : g.separators = 0 := by
    obtain ⟨hleading, hsegments, -⟩ := Frame.mk.inj (congrFun hadd e)
    simp_all [Frame.separators, Frame.empty]
  exact ⟨g, y, operand, hy, by simpa [Frame.enclosed, hseparators] using closed, hrun⟩

/-- A text that completes one operand in one go is read as a whole. -/
theorem reads_operand
    (h : ∀ f x, x.operand? = none →
      ∃ y, y.operand? = some e ∧ run ⟨f, os, x⟩ l = some ⟨f, os, y⟩) : Reads .unary os l e := by
  intro f x hx
  obtain ⟨y, hy, hrun⟩ := h f x hx
  exact ⟨[], y, e, hy, rfl, hrun⟩

theorem run_value {p : Pattern} (h : DerivesValue l p) :
    ∀ f os x, x.operand? = none → ∃ y : LastLexeme,
      y.operand? = some (.value (.ofPattern p)) ∧ run ⟨f, os, x⟩ l = some ⟨f, os, y⟩ := by
  induction h with
  | plain p =>
    intro f os x hx
    exact ⟨.value p, rfl, by rw [run_cons, step_value hx]; rfl⟩
  | @group l p _ ih =>
    intro f os x hx
    obtain ⟨y, hy, hrun⟩ := ih .empty (.group f :: os) .mark rfl
    refine ⟨.compound (.value (.ofPattern p)), rfl, ?_⟩
    rw [run_cons, step_openGroup hx, Option.bind_some, run_append, hrun, Option.bind_some, run_cons,
      step_closeGroup hy rfl]
    rfl

theorem reads_of_derives {place : Place} {level : Level} (h : Derives place level l e) :
    ∀ os, Opening.place os = place → Reads level os l e := by
  induction h with
  | or nonempty _ ih => exact fun os hos => reads_or nonempty fun part hpart => ih part hpart os hos
  | and nonempty _ ih =>
    exact fun os hos => reads_and nonempty fun part hpart => ih part hpart os hos
  | not _ ih =>
    intro os hos f x hx
    obtain ⟨ts, y, operand, hy, applied, hrun⟩ := ih os hos (f.addTight .not) .mark rfl
    refine ⟨ts ++ [.not], y, operand, hy, ?_, ?_⟩
    · rw [List.foldlM_append, applied]
      rfl
    · rw [run_cons, step_not hx, Option.bind_some, hrun]
      simp [Frame.addTight]
  | @group place l e _ ih =>
    intro os hos
    refine reads_operand fun f x hx => ?_
    obtain ⟨g, y, operand, hy, closed, hrun⟩ :=
      (ih (.group f :: os) hos).enclosed (x := .mark) rfl
    refine ⟨.compound e, rfl, ?_⟩
    rw [run_cons, step_openGroup hx, Option.bind_some, run_append, hrun, Option.bind_some, run_cons,
      step_closeGroup hy closed]
    rfl
  | value p =>
    intro os _
    exact reads_operand fun f x hx => run_value (.plain p) f os x hx
  | @node p l e _ ih =>
    intro os hos
    refine reads_operand fun f x hx => ?_
    obtain ⟨g, y, operand, hy, closed, hrun⟩ :=
      (ih (.bracket f p :: os) rfl).enclosed (x := .mark) rfl
    refine ⟨.compound (.node (.ofPattern p) e), rfl, ?_⟩
    rw [run_cons, step_value hx, Option.bind_some, run_cons, step_openBracket p hos,
      Option.bind_some, run_append, hrun, Option.bind_some, run_cons, step_closeBracket hy closed]
    rfl
  | presence key =>
    intro os _
    exact reads_operand fun f x hx => run_value key f os x hx
  | @property _ _ p q key value =>
    intro os hos f x hx
    obtain ⟨y, hy, hrun⟩ := run_value key f os x hx
    obtain ⟨z, hz, hrun'⟩ :=
      run_value value (f.addTight (.equals (.value (.ofPattern p)))) os .mark rfl
    refine ⟨[.equals (.value (.ofPattern p))], z, .value (.ofPattern q), hz, rfl, ?_⟩
    rw [run_append, hrun, Option.bind_some, run_cons, step_equals hy hos, Option.bind_some, hrun']
    rfl

theorem run_optionalSeparator (leading : Bool) :
    ∃ x : LastLexeme, x.operand? = none ∧
      start.run (optionalSeparator leading) = some ⟨⟨leading, [], [], [], []⟩, [], x⟩ := by
  cases leading with
  | false => exact ⟨.start, rfl, rfl⟩
  | true => exact ⟨.separator, rfl, rfl⟩

/-- A text of the grammar is read to its end and may end there. -/
theorem finish_of_derives {segments : List Expr} (h : DerivesFilter l segments) :
    ∃ r, start.run l = some r ∧ r.finish = some segments := by
  obtain ⟨leading, trailing, nonempty, each⟩ := h
  rename_i parts
  have hpart : ∀ part ∈ parts, ∀ f : Frame,
      (f.alternatives = [] ∧ f.factors = [] ∧ f.tights = []) →
      Completes Frame.disjunction Frame.addSegment [] f part.1 part.2 :=
    fun part hpart f hf =>
      (reads_of_derives (each part hpart) [] rfl) f hf.1 hf.2.1 hf.2.2
  obtain ⟨x, hx, hleading⟩ := run_optionalSeparator leading
  obtain ⟨earlier, last, g, z, operand, hmap, hz, closed, hadd, hrun⟩ :=
    run_chain (y := .separator) rfl (fun _ _ _ _ hz closed => step_separator hz closed)
      (fun _ _ => ⟨rfl, rfl, rfl⟩) nonempty hpart (f := ⟨leading, [], [], [], []⟩)
      ⟨rfl, rfl, rfl⟩ hx
  rw [Frame.foldl_addSegment] at hadd
  have hg : g.segments = earlier.reverse := by
    simpa [Frame.addSegment] using congrArg Frame.segments (congrFun hadd last)
  rw [List.append_assoc, run_append, hleading, Option.bind_some, run_append, hrun,
    Option.bind_some, hmap]
  cases trailing with
  | false =>
    exact ⟨⟨g, [], z⟩, rfl, by simp [finish_operand hz closed, hg]⟩
  | true =>
    refine ⟨⟨g.addSegment last, [], .separator⟩, ?_, ?_⟩
    · rw [optionalSeparator, if_pos rfl, run_cons, step_separator hz closed]
      rfl
    · simp [finish, Frame.addSegment, LastLexeme.operand?, hg]

end Reading

end PathFilter
