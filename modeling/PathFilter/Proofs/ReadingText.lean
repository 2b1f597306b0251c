import PathFilter.Proofs.Reading

namespace PathFilter

/-- Texts with their trees, each followed by a mark; the latest tree comes first. -/
inductive Followed (R : List Lexeme → Expr → Prop) (m : Mark) : List Lexeme → List Expr → Prop
  | nil : Followed R m [] []
  | snoc {l r : List Lexeme} {es : List Expr} {e : Expr} (earlier : Followed R m l es)
      (latest : R r e) : Followed R m (l ++ (r ++ [.mark m])) (e :: es)

namespace Followed

variable {R : List Lexeme → Expr → Prop} {m : Mark} {l : List Lexeme} {es : List Expr}

theorem append_parts (h : Followed R m l es) {later : List (List Lexeme × Expr)}
    (nonempty : later ≠ []) (each : ∀ part ∈ later, R part.1 part.2) :
    ∃ parts : List (List Lexeme × Expr), parts ≠ [] ∧ (∀ part ∈ parts, R part.1 part.2) ∧
      l ++ [.mark m].intercalate (later.map Prod.fst) = [.mark m].intercalate (parts.map Prod.fst) ∧
      es.reverse ++ later.map Prod.snd = parts.map Prod.snd := by
  induction h generalizing later with
  | nil => exact ⟨later, nonempty, each, rfl, rfl⟩
  | @snoc l r es e _ latest ih =>
    have heach : ∀ part ∈ (r, e) :: later, R part.1 part.2 := by
      simpa using ⟨latest, fun a b hab => each (a, b) hab⟩
    obtain ⟨parts, hne, hparts, htext, htrees⟩ := ih (by simp) heach
    refine ⟨parts, hne, hparts, ?_, by simpa using htrees⟩
    rw [← htext, List.map_cons, List.intercalate_cons_of_ne_nil (by simpa using nonempty)]
    simp

/-- One more text makes the texts before it a chain. -/
theorem chain (h : Followed R m l es) {r : List Lexeme} {e : Expr} (last : R r e) :
    ∃ parts : List (List Lexeme × Expr), parts ≠ [] ∧ (∀ part ∈ parts, R part.1 part.2) ∧
      l ++ r = [.mark m].intercalate (parts.map Prod.fst) ∧
      es.reverse ++ [e] = parts.map Prod.snd := by
  simpa using h.append_parts (List.cons_ne_nil (r, e) []) (by simpa using last)

theorem parts (h : Followed R m l es) (nonempty : es ≠ []) :
    ∃ parts : List (List Lexeme × Expr), parts ≠ [] ∧ (∀ part ∈ parts, R part.1 part.2) ∧
      l = [.mark m].intercalate (parts.map Prod.fst) ++ [.mark m] ∧
      es.reverse = parts.map Prod.snd := by
  cases h with
  | nil => simp at nonempty
  | snoc earlier latest =>
    obtain ⟨parts, hne, hparts, htext, htrees⟩ := earlier.chain latest
    exact ⟨parts, hne, hparts, by rw [← htext]; simp, by simpa using htrees⟩

end Followed

/-- The texts of operators that wait for one operand. -/
inductive TightText : Place → List Lexeme → List Tight → Prop
  | nil {place : Place} : TightText place [] []
  | not {place : Place} {l : List Lexeme} {ts : List Tight} (earlier : TightText place l ts) :
      TightText place (l ++ [.mark .not]) (.not :: ts)
  | equals {l r : List Lexeme} {ts : List Tight} {k : Expr} (earlier : TightText .bracket l ts)
      (key : Derives .bracket .unary r k) :
      TightText .bracket (l ++ (r ++ [.mark .equals])) (.equals k :: ts)

/-- An operand completes the operators that wait for it. -/
theorem TightText.derives {place : Place} {l r : List Lexeme} {ts : List Tight} {e tree : Expr}
    (h : TightText place l ts) (operand : Derives place .unary r e)
    (applied : ts.foldlM (fun e t => t.apply e) e = some tree) :
    Derives place .unary (l ++ r) tree := by
  induction h generalizing r e with
  | nil =>
    obtain rfl := Option.some.inj applied
    exact operand
  | not _ ih =>
    have := ih operand.not (by simpa [Tight.apply] using applied)
    simpa using this
  | equals _ key ih =>
    obtain ⟨applied₁, hprop, applied⟩ := Option.bind_eq_some_iff.mp applied
    obtain ⟨k, v, rfl, rfl, rfl⟩ := Tight.apply_equals hprop
    obtain ⟨p, hp, rfl⟩ := key.derivesValue
    obtain ⟨q, hq, rfl⟩ := operand.derivesValue
    have := ih (.property hp hq) applied
    simpa using this

/-- A text that a frame has read, in the order in which the frame stacks its parts. -/
inductive FrameText (place : Place) : Frame → List Lexeme → Prop
  | mk {segments alternatives factors : List Expr} {tights : List Tight}
      {l₁ l₂ l₃ l₄ : List Lexeme} (leading : Bool)
      (ended : Followed (Derives place .or) .separator l₁ segments)
      (disjuncts : Followed (Derives place .and) .or l₂ alternatives)
      (conjuncts : Followed (Derives place .unary) .and l₃ factors)
      (waiting : TightText place l₄ tights) :
      FrameText place ⟨leading, segments, alternatives, factors, tights⟩
        (optionalSeparator leading ++ (l₁ ++ (l₂ ++ (l₃ ++ l₄))))

namespace FrameText

variable {place : Place} {f : Frame} {l r : List Lexeme} {e tree : Expr}

theorem empty : FrameText place .empty [] := .mk false .nil .nil .nil .nil

theorem nil_of_empty (h : FrameText place f l) (hf : f = .empty) : l = [] := by
  obtain ⟨leading, ended, disjuncts, conjuncts, waiting⟩ := h
  obtain ⟨rfl, rfl, rfl, rfl, rfl⟩ := Frame.mk.inj hf
  cases ended
  cases disjuncts
  cases conjuncts
  cases waiting
  rfl

theorem addNot (h : FrameText place f l) :
    FrameText place (f.addTight .not) (l ++ [.mark .not]) := by
  obtain ⟨leading, ended, disjuncts, conjuncts, waiting⟩ := h
  simpa [Frame.addTight] using FrameText.mk leading ended disjuncts conjuncts waiting.not

theorem addEquals (h : FrameText .bracket f l) (key : Derives .bracket .unary r e) :
    FrameText .bracket (f.addTight (.equals e)) (l ++ (r ++ [.mark .equals])) := by
  obtain ⟨leading, ended, disjuncts, conjuncts, waiting⟩ := h
  simpa [Frame.addTight] using FrameText.mk leading ended disjuncts conjuncts (waiting.equals key)

theorem addFactor (h : FrameText place f l) (operand : Derives place .unary r e)
    (closed : f.unary e = some tree) :
    FrameText place (f.addFactor tree) (l ++ (r ++ [.mark .and])) := by
  obtain ⟨leading, ended, disjuncts, conjuncts, waiting⟩ := h
  have factor := waiting.derives operand closed
  simpa [Frame.addFactor] using FrameText.mk leading ended disjuncts (conjuncts.snoc factor) .nil

/-- Texts followed by `&` make up a conjunction with one more. -/
theorem derives_conjunction {l : List Lexeme} {factors : List Expr}
    (earlier : Followed (Derives place .unary) .and l factors) (last : Derives place .unary r e) :
    Derives place .and (l ++ r) (.chain .and (factors.reverse ++ [e])) := by
  obtain ⟨parts, hne, hparts, htext, htrees⟩ := earlier.chain last
  rw [htext, htrees]
  exact .and hne hparts

theorem derives_disjunction {l : List Lexeme} {alternatives : List Expr}
    (earlier : Followed (Derives place .and) .or l alternatives) (last : Derives place .and r e) :
    Derives place .or (l ++ r) (.chain .or (alternatives.reverse ++ [e])) := by
  obtain ⟨parts, hne, hparts, htext, htrees⟩ := earlier.chain last
  rw [htext, htrees]
  exact .or hne hparts

theorem addAlternative (h : FrameText place f l) (operand : Derives place .unary r e)
    (closed : f.conjunction e = some tree) :
    FrameText place (f.addAlternative tree) (l ++ (r ++ [.mark .or])) := by
  obtain ⟨leading, ended, disjuncts, conjuncts, waiting⟩ := h
  obtain ⟨factor, hfactor, rfl⟩ := Option.map_eq_some_iff.mp closed
  have alternative := derives_conjunction conjuncts (waiting.derives operand hfactor)
  simpa [Frame.addAlternative] using
    FrameText.mk leading ended (disjuncts.snoc alternative) .nil .nil

/-- An operand completes what stands behind the last separator of a frame. -/
theorem disjunction (h : FrameText place f l) (operand : Derives place .unary r e)
    (closed : f.disjunction e = some tree) :
    ∃ front back, l ++ r = optionalSeparator f.leading ++ (front ++ back) ∧
      Followed (Derives place .or) .separator front f.segments ∧ Derives place .or back tree := by
  obtain ⟨leading, ended, disjuncts, conjuncts, waiting⟩ := h
  obtain ⟨alternative, hconj, rfl⟩ := Option.map_eq_some_iff.mp closed
  obtain ⟨factor, hfactor, rfl⟩ := Option.map_eq_some_iff.mp hconj
  have alternative := derives_conjunction conjuncts (waiting.derives operand hfactor)
  exact ⟨_, _, by simp, ended, derives_disjunction disjuncts alternative⟩

theorem addSegment (h : FrameText place f l) (operand : Derives place .unary r e)
    (closed : f.disjunction e = some tree) :
    FrameText place (f.addSegment tree) (l ++ (r ++ [.mark .separator])) := by
  obtain ⟨front, back, htext, ended, segment⟩ := h.disjunction operand closed
  have htext : l ++ (r ++ [.mark .separator]) =
      optionalSeparator f.leading ++ (front ++ (back ++ [.mark .separator])) := by
    rw [← List.append_assoc, htext]
    simp
  rw [htext]
  simpa [Frame.addSegment] using FrameText.mk f.leading (ended.snoc segment) .nil .nil .nil

/-- Before a closer an operand completes all that the frame has read. -/
theorem enclosed (h : FrameText place f l) (operand : Derives place .unary r e)
    (closed : f.enclosed e = some tree) : Derives place .or (l ++ r) tree := by
  unfold Frame.enclosed at closed
  split at closed
  next hzero =>
    obtain ⟨front, back, htext, ended, inner⟩ := h.disjunction operand closed
    obtain ⟨hsegments, hleading⟩ : f.segments = [] ∧ f.leading = false := by
      simpa [Frame.separators] using hzero
    rw [hsegments] at ended
    cases ended
    rw [htext, hleading]
    exact inner
  next => contradiction

end FrameText

/-- A text up to the innermost opener. -/
inductive OpeningsText : List Opening → List Lexeme → Prop
  | nil : OpeningsText [] []
  | group {os : List Opening} {f : Frame} {l k : List Lexeme} (outer : OpeningsText os l)
      (frame : FrameText (Opening.place os) f k) :
      OpeningsText (.group f :: os) (l ++ (k ++ [.mark .openGroup]))
  | bracket {os : List Opening} {f : Frame} {l k : List Lexeme} (p : Pattern)
      (outer : OpeningsText os l) (hplace : Opening.place os = .segment)
      (frame : FrameText .segment f k) :
      OpeningsText (.bracket f p :: os) (l ++ (k ++ [.value p, .mark .openBracket]))

/-- The text of the operand that was read last. Nothing was read before the start, and after a
separator no operator waits. -/
inductive LastText (place : Place) : Reading → List Lexeme → Prop
  | start : LastText place .start []
  | mark (f : Frame) (os : List Opening) : LastText place ⟨f, os, .mark⟩ []
  | separator (leading : Bool) (segments : List Expr) (os : List Opening) :
      LastText place ⟨⟨leading, segments, [], [], []⟩, os, .separator⟩ []
  | value (f : Frame) (os : List Opening) (p : Pattern) :
      LastText place ⟨f, os, .value p⟩ [.value p]
  | compound (f : Frame) (os : List Opening) {l : List Lexeme} {e : Expr}
      (operand : Derives place .unary l e) : LastText place ⟨f, os, .compound e⟩ l

/-- What it means that a reading has read a text. -/
inductive ReadingText : Reading → List Lexeme → Prop
  | mk {f : Frame} {os : List Opening} {x : LastLexeme} {l k o : List Lexeme}
      (outer : OpeningsText os l) (frame : FrameText (Opening.place os) f k)
      (last : LastText (Opening.place os) ⟨f, os, x⟩ o) : ReadingText ⟨f, os, x⟩ (l ++ (k ++ o))

theorem LastText.operand {place : Place} {r : Reading} {l : List Lexeme} {e : Expr}
    (h : LastText place r l) (he : r.last.operand? = some e) : Derives place .unary l e := by
  cases h with
  | start => cases he
  | mark => cases he
  | separator => cases he
  | value f os p =>
    obtain rfl := Option.some.inj he
    cases place with
    | segment => exact .value p
    | bracket => exact .presence (.plain p)
  | compound f os operand =>
    obtain rfl := Option.some.inj he
    exact operand

theorem LastText.nothing {place : Place} {r : Reading} {l : List Lexeme}
    (h : LastText place r l) (he : r.last.operand? = none) : l = [] := by
  cases h with
  | value => cases he
  | compound => cases he
  | _ => rfl

namespace ReadingText

variable {f : Frame} {os : List Opening} {x : LastLexeme} {l : List Lexeme} {e : Expr}

theorem start : ReadingText .start [] := mk .nil .empty .start

/-- Before an operand the text is that of the openings and the frame. -/
theorem expecting (h : ReadingText ⟨f, os, x⟩ l) (hx : x.operand? = none) :
    ∃ front back, l = front ++ back ∧ OpeningsText os front ∧
      FrameText (Opening.place os) f back := by
  obtain ⟨outer, frame, last⟩ := h
  exact ⟨_, _, by rw [last.nothing hx, List.append_nil], outer, frame⟩

/-- After an operand the text ends with that of the operand. -/
theorem withOperand (h : ReadingText ⟨f, os, x⟩ l) (hx : x.operand? = some e) :
    ∃ front back operand, l = front ++ (back ++ operand) ∧ OpeningsText os front ∧
      FrameText (Opening.place os) f back ∧ Derives (Opening.place os) .unary operand e := by
  obtain ⟨outer, frame, last⟩ := h
  exact ⟨_, _, _, rfl, outer, frame, last.operand hx⟩

theorem onValue (h : ReadingText ⟨f, os, x⟩ l) (hx : x.operand? = none) (p : Pattern) :
    ReadingText ⟨f, os, .value p⟩ (l ++ [.value p]) := by
  obtain ⟨front, back, rfl, outer, frame⟩ := h.expecting hx
  simpa using mk outer frame (.value f os p)

theorem onNegation (h : ReadingText ⟨f, os, x⟩ l) (hx : x.operand? = none) :
    ReadingText ⟨f.addTight .not, os, .mark⟩ (l ++ [.mark .not]) := by
  obtain ⟨front, back, rfl, outer, frame⟩ := h.expecting hx
  simpa using mk outer frame.addNot (.mark _ os)

theorem onOpenGroup (h : ReadingText ⟨f, os, x⟩ l) (hx : x.operand? = none) :
    ReadingText ⟨.empty, .group f :: os, .mark⟩ (l ++ [.mark .openGroup]) := by
  obtain ⟨front, back, rfl, outer, frame⟩ := h.expecting hx
  simpa using mk (outer.group frame) .empty (.mark .empty _)

theorem onAnd (h : ReadingText ⟨f, os, x⟩ l) (hx : x.operand? = some e) {tree : Expr}
    (closed : f.unary e = some tree) :
    ReadingText ⟨f.addFactor tree, os, .mark⟩ (l ++ [.mark .and]) := by
  obtain ⟨front, back, operand, rfl, outer, frame, derived⟩ := h.withOperand hx
  simpa using mk outer (frame.addFactor derived closed) (.mark _ os)

theorem onOr (h : ReadingText ⟨f, os, x⟩ l) (hx : x.operand? = some e) {tree : Expr}
    (closed : f.conjunction e = some tree) :
    ReadingText ⟨f.addAlternative tree, os, .mark⟩ (l ++ [.mark .or]) := by
  obtain ⟨front, back, operand, rfl, outer, frame, derived⟩ := h.withOperand hx
  simpa using mk outer (frame.addAlternative derived closed) (.mark _ os)

theorem onEquals (h : ReadingText ⟨f, os, x⟩ l) (hx : x.operand? = some e)
    (hplace : Opening.place os = .bracket) :
    ReadingText ⟨f.addTight (.equals e), os, .mark⟩ (l ++ [.mark .equals]) := by
  obtain ⟨front, back, operand, rfl, outer, frame, derived⟩ := h.withOperand hx
  rw [hplace] at frame derived
  have hframe : FrameText (Opening.place os) _ _ := hplace ▸ frame.addEquals derived
  simpa using mk outer hframe (.mark _ os)

theorem onLeadingSeparator (h : ReadingText ⟨f, os, .start⟩ l) :
    ReadingText ⟨{ f with leading := true }, os, .separator⟩ (l ++ [.mark .separator]) := by
  obtain ⟨outer, frame, last⟩ := h
  cases last
  cases outer
  obtain rfl := frame.nil_of_empty rfl
  exact mk .nil (.mk true .nil .nil .nil .nil) (.separator true [] [])

theorem onSeparator (h : ReadingText ⟨f, os, x⟩ l) (hx : x.operand? = some e) {tree : Expr}
    (closed : f.disjunction e = some tree) :
    ReadingText ⟨f.addSegment tree, os, .separator⟩ (l ++ [.mark .separator]) := by
  obtain ⟨front, back, operand, rfl, outer, frame, derived⟩ := h.withOperand hx
  simpa using mk outer (frame.addSegment derived closed) (.separator _ _ os)

theorem onCloseGroup {outer : Frame} (h : ReadingText ⟨f, .group outer :: os, x⟩ l)
    (hx : x.operand? = some e) {tree : Expr} (closed : f.enclosed e = some tree) :
    ReadingText ⟨outer, os, .compound tree⟩ (l ++ [.mark .closeGroup]) := by
  obtain ⟨front, back, operand, rfl, opened, frame, derived⟩ := h.withOperand hx
  have inner := frame.enclosed derived closed
  cases opened with
  | group before around => simpa using mk before around (.compound outer os inner.group)

theorem onOpenBracket {p : Pattern} (h : ReadingText ⟨f, os, .value p⟩ l)
    (hplace : Opening.place os = .segment) :
    ReadingText ⟨.empty, .bracket f p :: os, .mark⟩ (l ++ [.mark .openBracket]) := by
  obtain ⟨outer, frame, last⟩ := h
  cases last
  rw [hplace] at frame
  simpa using mk (outer.bracket p hplace frame) .empty (.mark .empty _)

theorem onCloseBracket {outer : Frame} {p : Pattern}
    (h : ReadingText ⟨f, .bracket outer p :: os, x⟩ l) (hx : x.operand? = some e) {tree : Expr}
    (closed : f.enclosed e = some tree) :
    ReadingText ⟨outer, os, .compound (.node (.ofPattern p) tree)⟩
      (l ++ [.mark .closeBracket]) := by
  obtain ⟨front, back, operand, rfl, opened, frame, derived⟩ := h.withOperand hx
  have filter : Derives .bracket .or (back ++ operand) tree := frame.enclosed derived closed
  cases opened with
  | bracket _ before hplace around =>
    rw [← hplace] at around
    have node := Derives.node p filter
    rw [← hplace] at node
    simpa using mk before around (.compound outer os node)

theorem step {r r' : Reading} {l : List Lexeme} {y : Lexeme} (h : ReadingText r l)
    (hs : r.Steps y r') : ReadingText r' (l ++ [y]) := by
  cases hs with
  | value hx p => exact h.onValue hx p
  | not hx => exact h.onNegation hx
  | openGroup hx => exact h.onOpenGroup hx
  | and hx closed => exact h.onAnd hx closed
  | or hx closed => exact h.onOr hx closed
  | equals hx hplace => exact h.onEquals hx hplace
  | closeGroup hx closed => exact h.onCloseGroup hx closed
  | openBracket p hplace => exact h.onOpenBracket hplace
  | closeBracket hx closed => exact h.onCloseBracket hx closed
  | separator hx closed => exact h.onSeparator hx closed
  | leadingSeparator => exact h.onLeadingSeparator

theorem of_run {r : Reading} {l : List Lexeme} (h : Reading.start.run l = some r) :
    ReadingText r l :=
  Reading.run_induction (P := fun l r => ReadingText r l) start (fun _ _ _ _ => step) h

/-- A text that ends with an operand is a filter without a trailing separator. -/
theorem filter_of_operand (h : ReadingText ⟨f, [], x⟩ l) (hx : x.operand? = some e) {tree : Expr}
    (closed : f.disjunction e = some tree) : DerivesFilter l (tree :: f.segments).reverse := by
  obtain ⟨front, back, operand, rfl, outer, frame, derived⟩ := h.withOperand hx
  cases outer
  obtain ⟨ended, last, htext, hended, hlast⟩ := frame.disjunction derived closed
  obtain ⟨parts, hne, hparts, hparted, htrees⟩ := hended.chain hlast
  rw [List.nil_append, htext, hparted, List.reverse_cons, htrees]
  simpa [optionalSeparator] using DerivesFilter.segments f.leading false hne hparts

theorem filter_of_separator (h : ReadingText ⟨f, [], .separator⟩ l) (hne : f.segments ≠ []) :
    DerivesFilter l f.segments.reverse := by
  obtain ⟨outer, frame, last⟩ := h
  cases outer
  cases last
  obtain ⟨_, ended, disjuncts, conjuncts, waiting⟩ := frame
  cases disjuncts
  cases conjuncts
  cases waiting
  obtain ⟨parts, hparts₀, hparts, htext, htrees⟩ := ended.parts hne
  rw [htext, htrees]
  simpa [optionalSeparator] using DerivesFilter.segments _ true hparts₀ hparts

theorem finish {r : Reading} {l : List Lexeme} {segments : List Expr} (h : ReadingText r l)
    (hs : r.finish = some segments) : DerivesFilter l segments := by
  obtain ⟨f, os, x⟩ := r
  unfold Reading.finish at hs
  split at hs
  next e hos hx =>
    obtain rfl : os = [] := hos
    obtain ⟨tree, closed, rfl⟩ := Option.map_eq_some_iff.mp hs
    exact h.filter_of_operand hx closed
  next hos _ hx =>
    obtain rfl : os = [] := hos
    obtain rfl : x = .separator := hx
    obtain ⟨hne, hs⟩ := Option.ite_none_left_eq_some.mp hs
    obtain rfl := Option.some.inj hs
    exact h.filter_of_separator (by simpa using hne)
  next => contradiction

end ReadingText

end PathFilter
