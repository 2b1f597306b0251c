import PathFilter.Proofs.Acceptance
import PathFilter.Proofs.PathForm
import PathFilter.Proofs.Traversal

namespace PathFilter

theorem any_eq_of_same {α : Type} {xs ys : List α} (same : ∀ x, x ∈ xs ↔ x ∈ ys) (p : α → Bool) :
    xs.any p = ys.any p := by
  rw [Bool.eq_iff_iff, List.any_eq_true, List.any_eq_true]
  simp only [same]

section

variable {ps qs : List (String × String)}

/-- A predicate asks whether some pair fits, and the operators see no more than its answer. -/
theorem Expr.holds_eq_of_same (same : ∀ entry, entry ∈ ps ↔ entry ∈ qs) (e : Expr) :
    e.holds ps = e.holds qs := by
  induction e using Expr.tree_induction with
  | value m => rw [holds, holds, any_eq_of_same same]
  | apply op es ih =>
    rw [holds_apply, holds_apply]
    exact op.verdict_congr ih
  | property k v => rw [holds, holds, any_eq_of_same same]
  | node v e _ => rw [holds, holds]
  | always => rw [holds, holds]
  | foreign f => rw [holds, holds]

theorem Expr.selects_eq_of_same (same : ∀ entry, entry ∈ ps ↔ entry ∈ qs) (segment : List Char)
    (e : Expr) : e.selects ps segment = e.selects qs segment := by
  induction e using Expr.tree_induction with
  | value m => rw [selects, selects]
  | apply op es ih =>
    rw [selects_apply, selects_apply]
    exact op.verdict_congr ih
  | property k v => rw [selects, selects]
  | node v e _ => rw [selects, selects, holds_eq_of_same same e]
  | always => rw [selects, selects]
  | foreign f => rw [selects, selects]

theorem walk_eq_of_same (same : ∀ entry, entry ∈ ps ↔ entry ∈ qs) (below : Bool)
    (segments : List Expr) (parts : List (List Char)) :
    walk ps below segments parts = walk qs below segments parts := by
  induction segments generalizing parts with
  | nil => cases parts <;> rfl
  | cons e es ih =>
    cases parts with
    | nil => rfl
    | cons part parts => rw [walk, walk, e.selects_eq_of_same same, ih]

end

theorem matchPath_eq_of_same {x y : PropertyBag}
    (same : ∀ entry, entry ∈ x.pairs ↔ entry ∈ y.pairs) (segments : List Expr) (path : String) :
    matchPath segments path x = matchPath segments path y := by
  unfold matchPath
  split
  next => rw [walk_eq_of_same same]
  next => rfl

/-- The pairs that a caller attaches to a node, whatever the shape in which they are passed. The
keys and values of a mapping count by their texts. -/
def PropertySource.Gives (source : PropertySource) (key value : String) : Prop :=
  match source with
  | .nothing => False
  | .bag b => .pair key value ∈ b.properties
  | .mapping entries => ∃ entry ∈ entries, entry.1.shown = key ∧ entry.2.shown = value
  | .elements items => .property (.pair key value) ∈ items
  | .value (.fields entries) => ∃ entry ∈ entries, entry.1 = key ∧ entry.2.shown = value
  | .value _ => False

namespace PropertyBag

variable {key value : String}

theorem pairs_empty : empty.pairs = [] := rfl

theorem mem_pairs_ofMapping_iff {entries : List (Value × Value)} :
    (key, value) ∈ (ofMapping entries).pairs ↔
      ∃ entry ∈ entries, entry.1.shown = key ∧ entry.2.shown = value := by
  simp [ofMapping, pairs_ofPairs]

theorem propertiesOf_eq_ok_iff {items : List Element} {properties : List Property} :
    propertiesOf items = .ok properties ↔ items = properties.map .property := by
  induction items generalizing properties with
  | nil => cases properties <;> simp [propertiesOf]
  | cons item items ih =>
    cases item with
    | other v => cases properties <;> simp [propertiesOf]
    | property p =>
      rw [propertiesOf, map_eq_ok_iff]
      simp only [ih]
      cases properties with
      | nil => simp
      | cons q properties => simp [and_comm, eq_comm]

/-- What is no property gives a bag only if there is none of it. -/
theorem ofElements_other {items : List Element} (other : ∀ p, .property p ∉ items)
    {x : PropertyBag} (h : ofElements items = .ok x) : x = .empty := by
  obtain ⟨properties, hproperties, rfl⟩ := map_eq_ok_iff.mp h
  obtain rfl := propertiesOf_eq_ok_iff.mp hproperties
  cases properties with
  | nil => rfl
  | cons p properties => exact absurd (by simp) (other p)

theorem mem_pairs_of_ofValue {v : Value} {x : PropertyBag} (h : ofValue v = .ok x) :
    (key, value) ∈ x.pairs ↔ (PropertySource.value v).Gives key value := by
  cases v with
  | fields entries =>
    obtain rfl := Except.ok.inj h
    rw [mem_pairs_ofMapping_iff]
    simp [PropertySource.Gives, Value.shown]
  | null =>
    obtain rfl := Except.ok.inj h
    simp [PropertySource.Gives, pairs_empty]
  | list items =>
    obtain rfl := ofElements_other (by simp) h
    simp [PropertySource.Gives, pairs_empty]
  | text s =>
    obtain rfl := ofElements_other (by simp) h
    simp [PropertySource.Gives, pairs_empty]
  | bool b => contradiction
  | int n => contradiction
  | other type text isEmpty => contradiction

/-- A bag holds the pairs that its source gives, and no others. -/
theorem mem_pairs_of_ofSource {source : PropertySource} {x : PropertyBag}
    (h : ofSource source = .ok x) : (key, value) ∈ x.pairs ↔ source.Gives key value := by
  cases source with
  | nothing =>
    obtain rfl := Except.ok.inj h
    simp [PropertySource.Gives, pairs_empty]
  | bag b =>
    obtain rfl := Except.ok.inj h
    exact mem_pairs_iff
  | mapping entries =>
    obtain rfl := Except.ok.inj h
    exact mem_pairs_ofMapping_iff
  | elements items =>
    obtain ⟨properties, hproperties, rfl⟩ := map_eq_ok_iff.mp h
    obtain rfl := propertiesOf_eq_ok_iff.mp hproperties
    rw [mem_pairs_iff]
    simp [PropertySource.Gives]
  | value v => exact mem_pairs_of_ofValue h

end PropertyBag

/-- A filter sees the properties of a node as a set of pairs: neither their order, nor how often
they are given, nor the shape in which they are passed, nor properties of other kinds matter. -/
theorem Filter.selects_of_samePairs (f : Filter) {a b : PropertySource} {x y : PropertyBag}
    (ha : PropertyBag.ofSource a = .ok x) (hb : PropertyBag.ofSource b = .ok y)
    (same : ∀ key value, a.Gives key value ↔ b.Gives key value) (path : Value) :
    f.selects path a = f.selects path b ∧
      ∀ text, path = .text text → text.toList.head? = some '/' →
        ∃ answer, f.selects path a = .ok answer := by
  have hpairs : ∀ entry, entry ∈ x.pairs ↔ entry ∈ y.pairs := by
    rintro ⟨key, value⟩
    rw [PropertyBag.mem_pairs_of_ofSource ha, PropertyBag.mem_pairs_of_ofSource hb, same]
  constructor
  · cases path with
    | text text =>
      have hpath := matchPath_eq_of_same hpairs f.segments text
      simp only [selects, ha, hb, Except.mapError, bind, Except.bind, selectsPath, hpath]
    | _ => rfl
  · rintro text rfl root
    obtain ⟨rest, hrest⟩ := List.head?_eq_some_iff.mp root
    obtain ⟨answer, hanswer⟩ := exists_matchPath_of_root f.valid hrest x
    exact ⟨answer, selects_eq_ok_iff.mpr ⟨x, ha, hanswer⟩⟩

theorem Filter.selects_of_samePairs_negated :
    let a : PropertySource := .mapping [(.int 1, .text "x"), (.text "k", .text "v")]
    let b : PropertySource := .elements
      [.property (.pair "k" "v"), .property (.label "w"), .property (.pair "1" "x"),
        .property (.pair "k" "v")]
    ∃ (f : Filter) (x y : PropertyBag), Filter.ofText "A[!(k=w)&1]" = .ok f ∧
      PropertyBag.ofSource a = .ok x ∧ PropertyBag.ofSource b = .ok y ∧
      (∀ key value, a.Gives key value ↔ b.Gives key value) ∧
      f.selects (.text "/A") a = f.selects (.text "/A") b ∧
      "/A".toList.head? = some '/' ∧ ∃ answer, f.selects (.text "/A") a = .ok answer := by
  intro a b
  have parsed : parseFilter "A[!(k=w)&1]" = .ok
      [.node ⟨['A']⟩ (.apply .and [.apply .not [.property ⟨['k']⟩ ⟨['w']⟩], .value ⟨['1']⟩])] := by
    cbv
  let f : Filter := ⟨"A[!(k=w)&1]", _, parsed⟩
  have same : ∀ key value, a.Gives key value ↔ b.Gives key value := by
    have hone : (Value.int 1).described = "1" := by cbv
    intro key value
    simp [a, b, PropertySource.Gives, hone, Value.shown, or_comm, eq_comm]
  obtain ⟨hsame, hanswer⟩ := f.selects_of_samePairs (a := a) (b := b) rfl rfl same (.text "/A")
  exact ⟨f, _, _, ofText_of_parsed parsed, rfl, rfl, same, hsame, rfl, hanswer "/A" rfl rfl⟩

end PathFilter
