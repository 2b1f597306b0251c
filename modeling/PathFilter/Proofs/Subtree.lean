import PathFilter.Proofs.Joining
import PathFilter.Proofs.WholeText

namespace PathFilter

section

variable {pairs : List (String × String)} {segments : List Expr} {parts : List (List Char)}

theorem Agrees.of_append_parts {more : List (List Char)}
    (h : Agrees pairs segments (parts ++ more)) : Agrees pairs segments parts := by
  intro i hs hp
  have hpart := h i hs (by rw [List.length_append]; omega)
  rwa [List.getElem_append_left hp] at hpart

/-- Parts below the last segment are not looked at. -/
theorem agrees_append_parts_iff (deep : segments.length ≤ parts.length)
    (more : List (List Char)) :
    Agrees pairs segments (parts ++ more) ↔ Agrees pairs segments parts := by
  refine ⟨Agrees.of_append_parts, fun h i hs hp => ?_⟩
  have hi : i < parts.length := by omega
  rw [List.getElem_append_left hi]
  exact h i hs hi

/-- Segments that select every part may be left out at the end. -/
theorem agrees_append_segments_iff {extra : List Expr}
    (all : ∀ e ∈ extra, ∀ part, e.selects pairs part = .ok true) :
    Agrees pairs (segments ++ extra) parts ↔ Agrees pairs segments parts := by
  constructor
  · intro h i hs hp
    have hpart := h i (by rw [List.length_append]; omega) hp
    rwa [List.getElem_append_left hs] at hpart
  · intro h i hs hp
    by_cases hi : i < segments.length
    · rw [List.getElem_append_left hi]
      exact h i hi hp
    · rw [List.getElem_append_right (by omega)]
      exact all _ (List.getElem_mem _) _

end

/-- A run of wildcards, not the empty one, accepts every text. -/
theorem Pattern.covers_wildcards (count : Nat) (t : List Char) :
    Covers (List.replicate (count + 1) .wildcard) t := by
  induction count with
  | zero => exact covers_cons_iff.mpr ⟨t, [], by simp, trivial, covers_nil_iff.mpr rfl⟩
  | succ count ih =>
    rw [List.replicate_succ]
    exact covers_cons_iff.mpr ⟨[], t, rfl, trivial, ih⟩

def Expr.wildcards (count : Nat) : Expr := .value (.ofPattern (List.replicate count .wildcard))

theorem Expr.selects_wildcards (count : Nat) (pairs : List (String × String)) (t : List Char) :
    (wildcards (count + 1)).selects pairs t = .ok true :=
  congrArg Except.ok (Mask.accepts_ofPattern_iff.mpr (Pattern.covers_wildcards count t))

namespace Filter

variable {f : Filter} {bag : PropertyBag} {path : String} {rest : List Char}

theorem selects_bag_eq_ok_iff {b : Bool} :
    f.selects (.text path) (.bag bag) = .ok b ↔ matchPath f.segments path bag = .ok b := by
  rw [selects_eq_ok_iff]
  constructor
  · rintro ⟨_, hbag, h⟩
    cases hbag
    exact h
  · exact fun h => ⟨bag, rfl, h⟩

theorem exists_selects (f : Filter) (root : path.toList = '/' :: rest) (bag : PropertyBag) :
    ∃ b, f.selects (.text path) (.bag bag) = .ok b := by
  obtain ⟨b, hb⟩ := exists_matchPath_of_root f.valid root bag
  exact ⟨b, selects_bag_eq_ok_iff.mpr hb⟩

theorem exists_root {b : Bool} (h : f.selects (.text path) (.bag bag) = .ok b) :
    ∃ rest, path.toList = '/' :: rest :=
  exists_root_of_matchPath (selects_bag_eq_ok_iff.mp h)

theorem selects_root_iff (root : path.toList = '/' :: rest) :
    f.selects (.text path) (.bag bag) = .ok true ↔
      Agrees bag.pairs f.segments (rest.splitOn '/') ∧
        ((rest.splitOn '/').length ≤ f.segments.length ∨
          f.segments.getLast? = some (.value .everythingBelow)) :=
  selects_bag_eq_ok_iff.trans (matchPath_root_iff root)

theorem toList_child (root : path.toList = '/' :: rest) (c : String) :
    (path ++ "/" ++ c).toList = '/' :: (rest ++ '/' :: c.toList) := by
  simp [root]

theorem selects_of_child (root : path.toList = '/' :: rest) {c : String}
    (h : f.selects (.text (path ++ "/" ++ c)) (.bag bag) = .ok true) :
    f.selects (.text path) (.bag bag) = .ok true := by
  rw [selects_root_iff (toList_child root c), List.splitOn_append_cons_self,
    List.length_append] at h
  obtain ⟨hagrees, hdepth⟩ := h
  refine (selects_root_iff root).mpr ⟨hagrees.of_append_parts, hdepth.imp_left ?_⟩
  omega

/-- Below the depth of the filter, `**` goes on as before and anything else stops. -/
theorem selects_child (root : path.toList = '/' :: rest)
    (deep : f.segments.length ≤ (rest.splitOn '/').length) (c : String) :
    f.selects (.text (path ++ "/" ++ c)) (.bag bag) =
      if f.segments.getLast? = some (.value .everythingBelow) then
        f.selects (.text path) (.bag bag)
      else .ok false := by
  have hchild := @selects_root_iff f bag _ _ (toList_child root c)
  rw [List.splitOn_append_cons_self, agrees_append_parts_iff deep, List.length_append] at hchild
  have hpart : 0 < (c.toList.splitOn '/').length :=
    List.length_pos_iff.mpr (List.splitOn_ne_nil '/' c.toList)
  have hbelow : ¬(rest.splitOn '/').length + (c.toList.splitOn '/').length ≤ f.segments.length := by
    omega
  obtain ⟨b, hb⟩ := f.exists_selects (toList_child root c) bag
  obtain ⟨d, hd⟩ := f.exists_selects root bag
  have hpath := @selects_root_iff f bag _ _ root
  rw [hb, Except.ok.injEq] at hchild
  rw [hd, Except.ok.injEq] at hpath
  rw [hb, hd]
  split
  next hlast =>
    have hsame : b = true ↔ d = true := by
      rw [hchild, hpath]
      simp only [hlast, or_true, and_true]
    rw [Bool.eq_iff_iff.mpr hsame]
  next hlast =>
    have hfalse : b = false := by
      rw [← Bool.not_eq_true, hchild]
      rintro ⟨-, hdepth | hlast'⟩
      · exact hbelow hdepth
      · exact hlast hlast'
    rw [hfalse]

end Filter

theorem nothingBelow_star : NothingBelow (segmentSites [.wildcards 1]) := by
  decide

theorem parseFilter_stars (count : Nat) :
    parseFilter ("*" ++ String.join (List.replicate count "/*")) =
      .ok (List.replicate (count + 1) (.wildcards 1)) := by
  have hstar : parseFilter "*" = .ok [.wildcards 1] := by cbv
  induction count with
  | zero => exact hstar
  | succ count ih =>
    -- the first star is the filter that the others are joined to
    have htext : "*" ++ String.join (List.replicate (count + 1) "/*") =
        "*" ++ "/" ++ ("*" ++ String.join (List.replicate count "/*")) := by
      simp [← String.toList_inj, List.replicate_succ]
    rw [htext, List.replicate_succ]
    exact parseFilter_join hstar ih (by decide) (by simp) nothingBelow_star

namespace Filter

variable {f : Filter} {bag : PropertyBag} {path : String}

theorem parse_below (ended : f.text.toList.getLast? ≠ some '/')
    (below : NothingBelow (segmentSites f.segments)) :
    parseFilter (f.text ++ "/**") = .ok (f.segments ++ [.wildcards 2]) := by
  have hbelow : parseFilter "**" = .ok [.wildcards 2] := by cbv
  have hjoin := parseFilter_join f.parsed hbelow ended (by decide) below
  rwa [String.append_assoc] at hjoin

theorem parse_stars (ended : f.text.toList.getLast? ≠ some '/')
    (below : NothingBelow (segmentSites f.segments)) (count : Nat) :
    parseFilter (f.text ++ String.join (List.replicate count "/*")) =
      .ok (f.segments ++ List.replicate count (.wildcards 1)) := by
  cases count with
  | zero => simpa using f.parsed
  | succ count =>
    have htext : f.text ++ String.join (List.replicate (count + 1) "/*") =
        f.text ++ "/" ++ ("*" ++ String.join (List.replicate count "/*")) := by
      simp [← String.toList_inj, List.replicate_succ]
    rw [htext]
    exact parseFilter_join f.parsed (parseFilter_stars count) ended (by simp) below

/-- After the segments of a filter, `**` selects what one `*` or more select together. -/
theorem selects_below_iff {g : Filter} {h : Nat → Filter}
    (hg : g.segments = f.segments ++ [.wildcards 2])
    (hh : ∀ count, (h count).segments = f.segments ++ List.replicate count (.wildcards 1)) :
    g.selects (.text path) (.bag bag) = .ok true ↔
      ∃ count, 1 ≤ count ∧ (h count).selects (.text path) (.bag bag) = .ok true := by
  -- past the segments of `f` every part agrees, so that only the depth tells `g` and `h` apart
  have gagrees : ∀ parts, Agrees bag.pairs g.segments parts ↔ Agrees bag.pairs f.segments parts := by
    intro parts
    rw [hg]
    exact agrees_append_segments_iff (List.forall_mem_singleton.mpr (Expr.selects_wildcards 1 _))
  have hagrees : ∀ count parts, Agrees bag.pairs (h count).segments parts ↔
      Agrees bag.pairs f.segments parts := by
    intro count parts
    rw [hh]
    refine agrees_append_segments_iff fun e he => ?_
    rw [List.eq_of_mem_replicate he]
    exact Expr.selects_wildcards 0 _
  constructor
  · intro hselects
    obtain ⟨rest, root⟩ := exists_root hselects
    rw [selects_root_iff root, gagrees] at hselects
    -- more stars than the path has parts are deep enough, whatever the depth of `f`
    refine ⟨(rest.splitOn '/').length + 1, by omega, ?_⟩
    rw [selects_root_iff root, hagrees, hh, List.length_append, List.length_replicate]
    exact ⟨hselects.1, .inl (by omega)⟩
  · rintro ⟨count, -, hselects⟩
    obtain ⟨rest, root⟩ := exists_root hselects
    rw [selects_root_iff root, hagrees] at hselects
    rw [selects_root_iff root, gagrees, hg]
    exact ⟨hselects.1, .inr List.getLast?_concat⟩

end Filter

/-- Selection in a tree of nodes. Nodes above a selected node are selected. Below the depth of a
filter its last segment decides. And `**` at the end stands for one segment `*` or more. -/
theorem Filter.selects_tree (f : Filter) (bag : PropertyBag) :
    (∀ (path c : String), path.toList.head? = some '/' →
      f.selects (.text (path ++ "/" ++ c)) (.bag bag) = .ok true →
      f.selects (.text path) (.bag bag) = .ok true) ∧
    (∀ (path c : String) (rest : List Char), path.toList = '/' :: rest →
      f.segments.length ≤ (rest.splitOn '/').length →
      f.selects (.text (path ++ "/" ++ c)) (.bag bag) =
        if f.segments.getLast? = some (.value ⟨['.', '*', '.', '*']⟩) then
          f.selects (.text path) (.bag bag)
        else .ok false) ∧
    (f.text.toList.getLast? ≠ some '/' → NothingBelow (segmentSites f.segments) →
      ∃ (g : Filter) (h : Nat → Filter), Filter.ofText (f.text ++ "/**") = .ok g ∧
        (∀ count, Filter.ofText (f.text ++ String.join (List.replicate count "/*")) =
          .ok (h count)) ∧
        ∀ path, g.selects (.text path) (.bag bag) = .ok true ↔
          ∃ count, 1 ≤ count ∧ (h count).selects (.text path) (.bag bag) = .ok true) := by
  refine ⟨?_, ?_, ?_⟩
  · intro path c root
    obtain ⟨rest, hrest⟩ := List.head?_eq_some_iff.mp root
    exact selects_of_child hrest
  · intro path c rest root deep
    exact selects_child root deep c
  · intro ended below
    exact ⟨⟨_, _, parse_below ended below⟩, fun count => ⟨_, _, parse_stars ended below count⟩,
      ofText_of_parsed _, fun count => ofText_of_parsed _,
      fun path => selects_below_iff rfl fun _ => rfl⟩

theorem Filter.selects_tree_negated :
    let bag : PropertyBag := ⟨[]⟩
    ∃ f : Filter, Filter.ofText "!a/b" = .ok f ∧
      ("/x".toList.head? = some '/' ∧
        f.selects (.text ("/x" ++ "/" ++ "b")) (.bag bag) = .ok true ∧
        f.selects (.text "/x") (.bag bag) = .ok true) ∧
      ("/x/b".toList = '/' :: "x/b".toList ∧
        f.segments.length ≤ ("x/b".toList.splitOn '/').length ∧
        f.selects (.text ("/x/b" ++ "/" ++ "c")) (.bag bag) =
          if f.segments.getLast? = some (.value ⟨['.', '*', '.', '*']⟩) then
            f.selects (.text "/x/b") (.bag bag)
          else .ok false) ∧
      (f.text.toList.getLast? ≠ some '/' ∧ NothingBelow (segmentSites f.segments) ∧
        ∃ (g : Filter) (h : Nat → Filter), Filter.ofText (f.text ++ "/**") = .ok g ∧
          (∀ count, Filter.ofText (f.text ++ String.join (List.replicate count "/*")) =
            .ok (h count)) ∧
          ∀ path, g.selects (.text path) (.bag bag) = .ok true ↔
            ∃ count, 1 ≤ count ∧ (h count).selects (.text path) (.bag bag) = .ok true) := by
  intro bag
  have parsed : parseFilter "!a/b" = .ok [.apply .not [.value ⟨['a']⟩], .value ⟨['b']⟩] := by cbv
  let f : Filter := ⟨"!a/b", _, parsed⟩
  have selected : f.selects (.text ("/x" ++ "/" ++ "b")) (.bag bag) = .ok true := by cbv
  have deep : 2 ≤ ("x/b".toList.splitOn '/').length := by decide
  have ended : "!a/b".toList.getLast? ≠ some '/' := by decide
  have below : NothingBelow (segmentSites [.apply .not [.value ⟨['a']⟩], .value ⟨['b']⟩]) := by
    decide
  obtain ⟨parent, child, union⟩ := f.selects_tree bag
  exact ⟨f, ofText_of_parsed parsed, ⟨rfl, selected, parent "/x" "b" rfl selected⟩,
    ⟨rfl, deep, child "/x/b" "c" "x/b".toList rfl deep⟩, ended, below, union ended below⟩

end PathFilter
