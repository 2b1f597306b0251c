import PathFilter.Diagnosis
import PathFilter.Proofs.PairSets
import PathFilter.Proofs.PropertyArguments

namespace PathFilter

theorem PropertyBag.ofPairs_injective : Function.Injective ofPairs := by
  intro ps qs h
  rw [← pairs_ofPairs ps, h, pairs_ofPairs]

/-- A list of pairs gives the bag of the same pairs. -/
theorem PropertyBag.ofSource_pairs (ps : List (String × String)) :
    ofSource (.elements (ps.map fun entry => .property (.pair entry.1 entry.2))) =
      .ok (ofPairs ps) := by
  rw [ofSource, ofElements, map_eq_ok_iff]
  exact ⟨_, propertiesOf_eq_ok_iff.mpr (by simp [Function.comp_def]), rfl⟩

namespace PropertyArgument

/-- The first equals sign of the argument has a key before it. -/
def HasKey (argument : String) : Prop := ∃ i, argument.toList.idxOf? '=' = some i ∧ 1 ≤ i

/-- A pair that an argument can spell: the key is not empty and holds no equals sign. -/
def Keyed (entry : String × String) : Prop := entry.1 ≠ "" ∧ '=' ∉ entry.1.toList

def spell (entry : String × String) : String := entry.1 ++ "=" ++ entry.2

section

variable {argument : String} {entry : String × String} {arguments : List String}
  {entries : List (String × String)}

theorem not_hasKey_iff :
    ¬HasKey argument ↔ '=' ∉ argument.toList ∨ argument.toList.head? = some '=' := by
  unfold HasKey
  cases argument.toList with
  | nil => simp
  | cons c t =>
    by_cases hc : c = '='
    · simp [List.idxOf?_cons, hc]
    · simp [List.idxOf?_cons, hc, ← List.isSome_idxOf?, Option.isSome_iff_exists]

theorem hasKey_iff : HasKey argument ↔ ∃ entry, read argument = .ok entry := by
  cases hread : read argument with
  | error e =>
    have keyless := not_hasKey_iff.mpr (read_eq_error_iff.mp hread).1
    exact iff_of_false keyless nofun
  | ok entry =>
    have keyed : HasKey argument := by
      by_contra keyless
      rw [read_eq_error_iff.mpr ⟨not_hasKey_iff.mp keyless, rfl⟩] at hread
      contradiction
    exact iff_of_true keyed ⟨entry, rfl⟩

theorem assigns_iff : Assigns argument entry.1 entry.2 ↔ Keyed entry ∧ argument = spell entry :=
  ⟨fun h => ⟨⟨h.key_ne, h.whole⟩, h.text⟩, fun h => ⟨h.1.1, h.1.2, h.2⟩⟩

theorem readAll_eq_ok_iff_spell :
    readAll arguments = .ok entries ↔ (∀ entry ∈ entries, Keyed entry) ∧
      arguments = entries.map spell := by
  simp only [readAll_eq_ok_iff, assigns_iff]
  induction entries generalizing arguments with
  | nil => simp
  | cons entry entries ih =>
    simp only [List.forall₂_cons_right_iff, ih, List.forall_mem_cons, List.map_cons]
    constructor
    · rintro ⟨_, _, ⟨keyed, rfl⟩, ⟨later, rfl⟩, rfl⟩
      exact ⟨⟨keyed, later⟩, rfl⟩
    · rintro ⟨⟨keyed, later⟩, rfl⟩
      exact ⟨_, _, ⟨keyed, rfl⟩, ⟨later, rfl⟩, rfl⟩

theorem bag_eq_ok_iff {b : PropertyBag} :
    bag arguments = .ok b ↔ ∃ entries, readAll arguments = .ok entries ∧ .ofPairs entries = b :=
  map_eq_ok_iff

theorem bag_eq_ok_ofPairs_iff : bag arguments = .ok (.ofPairs entries) ↔
    (∀ entry ∈ entries, Keyed entry) ∧ arguments = entries.map spell := by
  rw [bag_eq_ok_iff, ← readAll_eq_ok_iff_spell]
  simp [PropertyBag.ofPairs_injective.eq_iff]

theorem bag_spell (keyed : ∀ entry ∈ entries, Keyed entry) :
    bag (entries.map spell) = .ok (.ofPairs entries) :=
  bag_eq_ok_ofPairs_iff.mpr ⟨keyed, rfl⟩

/-- The list is refused for the first of its arguments that has no key. -/
structure RefusedFor (arguments : List String) (bad : String) : Prop where
  first : ∃ before after, arguments = before ++ bad :: after ∧
    ∀ argument ∈ before, HasKey argument
  keyless : ¬HasKey bad
  error : bag arguments = .error (.propertyArgument bad)
  exitCode : (Failure.propertyArgument bad).diagnosis.exitCode = 2
  type : (Failure.propertyArgument bad).diagnosis.info.type = "usage_error"
  details : (Failure.propertyArgument bad).diagnosis.info.details =
    some (.fields [("property", .text bad)])

theorem exists_of_hasKey (good : ∀ argument ∈ arguments, HasKey argument) :
    ∃ entries, bag arguments = .ok (.ofPairs entries) := by
  cases hread : readAll arguments with
  | ok entries => exact ⟨entries, bag_eq_ok_iff.mpr ⟨entries, hread, rfl⟩⟩
  | error e =>
    obtain ⟨before, bad, after, rfl, _, keyless, _⟩ := exists_of_readAll_error hread
    exact absurd (good bad (by simp)) (not_hasKey_iff.mpr keyless)

theorem hasKey_of_bag {b : PropertyBag} (h : bag arguments = .ok b) :
    ∀ argument ∈ arguments, HasKey argument := by
  obtain ⟨entries, hread, _⟩ := bag_eq_ok_iff.mp h
  rw [readAll_eq_mapM] at hread
  exact fun argument hmem => hasKey_iff.mpr (exists_of_mapM_ok hread argument hmem)

theorem exists_refusedFor (bad : ¬∀ argument ∈ arguments, HasKey argument) :
    ∃ bad, RefusedFor arguments bad := by
  cases hread : readAll arguments with
  | ok entries => exact absurd (hasKey_of_bag (bag_eq_ok_iff.mpr ⟨entries, hread, rfl⟩)) bad
  | error e =>
    obtain ⟨before, bad, after, harguments, good, keyless, rfl⟩ := exists_of_readAll_error hread
    have hbefore : ∀ argument ∈ before, HasKey argument := by
      intro argument hmem
      obtain ⟨key, value, assigns⟩ := good argument hmem
      exact hasKey_iff.mpr ⟨(key, value), read_eq_ok_iff.mpr assigns⟩
    exact ⟨bad, ⟨before, after, harguments, hbefore⟩, not_hasKey_iff.mpr keyless,
      map_eq_error_iff.mpr hread, rfl, rfl, rfl⟩

end

/-- Property arguments are another spelling of lists of pairs. The lists of arguments that have keys
and the lists of pairs that have them are one to one, any other list is refused for the first of its
arguments that has none, and to a filter the arguments are the pairs. -/
theorem bag_decodes (arguments : List String) (entries : List (String × String)) :
    ((∃ b, bag arguments = .ok b) ↔ ∀ argument ∈ arguments, HasKey argument) ∧
      (bag arguments = .ok (.ofPairs entries) ↔
        (∀ entry ∈ entries, Keyed entry) ∧ arguments = entries.map spell) ∧
      ((∀ argument ∈ arguments, HasKey argument) → ∃! ps, bag arguments = .ok (.ofPairs ps)) ∧
      ((∀ entry ∈ entries, Keyed entry) → ∃! words, bag words = .ok (.ofPairs entries)) ∧
      ((¬∀ argument ∈ arguments, HasKey argument) → ∃ bad, RefusedFor arguments bad) ∧
      ((∀ entry ∈ entries, Keyed entry) → ∀ (f : Filter) (path : String),
        bag (entries.map spell) >>= f.selectsPath path =
          f.selects (.text path)
            (.elements (entries.map fun entry => .property (.pair entry.1 entry.2)))) := by
  refine ⟨⟨fun ⟨b, h⟩ => hasKey_of_bag h, fun good => ?_⟩, bag_eq_ok_ofPairs_iff, fun good => ?_,
    fun keyed => ?_, exists_refusedFor, fun keyed f path => ?_⟩
  · obtain ⟨ps, h⟩ := exists_of_hasKey good
    exact ⟨_, h⟩
  · obtain ⟨ps, h⟩ := exists_of_hasKey good
    refine ⟨ps, h, fun qs hqs => ?_⟩
    exact PropertyBag.ofPairs_injective (Except.ok.inj (hqs.symm.trans h))
  · exact ⟨_, bag_spell keyed, fun words h => (bag_eq_ok_ofPairs_iff.mp h).2⟩
  · rw [bag_spell keyed]
    simp only [Filter.selects, PropertyBag.ofSource_pairs, Except.mapError, bind, Except.bind]

theorem bag_decodes_url :
    let entries := [("Url", "http://h/p?a=b"), ("Empty", "")]
    let refused := ["Url=", "novalue", "=v"]
    (∀ entry ∈ entries, Keyed entry) ∧
      bag ["Url=http://h/p?a=b", "Empty="] = .ok (.ofPairs entries) ∧
      (∃! words, bag words = .ok (.ofPairs entries)) ∧
      (¬∀ argument ∈ refused, HasKey argument) ∧ ∃ bad, RefusedFor refused bad := by
  intro entries refused
  have keyed : ∀ entry ∈ entries, Keyed entry := by simp [entries, Keyed]
  have keyless : ¬∀ argument ∈ refused, HasKey argument := by
    simp [refused, not_hasKey_iff]
  have spelled : ["Url=http://h/p?a=b", "Empty="] = entries.map spell := by
    simp [entries, spell]
  obtain ⟨_, hbag, _, hwords, _⟩ := bag_decodes ["Url=http://h/p?a=b", "Empty="] entries
  obtain ⟨_, _, _, _, hrefused, _⟩ := bag_decodes refused entries
  exact ⟨keyed, hbag.mpr ⟨keyed, spelled⟩, hwords keyed, keyless, hrefused keyless⟩

/-- An equals sign after the first character is not enough: it is the first one that ends the key,
and the key may not be empty. -/
theorem bag_laterEquals :
    (∀ argument ∈ ["=a=b"], ∃ i, 1 ≤ i ∧ argument.toList[i]? = some '=') ∧
      ¬∃ b, bag ["=a=b"] = .ok b := by
  constructor
  · simp only [List.mem_singleton, forall_eq]
    exact ⟨2, by decide, rfl⟩
  · rintro ⟨b, h⟩
    contradiction

end PropertyArgument

end PathFilter
