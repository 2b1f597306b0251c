import PathFilter.Command
import PathFilter.Proofs.Traversal

namespace PathFilter

namespace PropertyArgument

/-- The argument gives a value to a key. The first equals sign ends the key. -/
structure Assigns (argument key value : String) : Prop where
  key_ne : key ≠ ""
  whole : '=' ∉ key.toList
  text : argument = key ++ "=" ++ value

variable {argument key value : String} {arguments : List String}
  {entries : List (String × String)}

theorem Assigns.cutFirst?_eq (h : Assigns argument key value) :
    cutFirst? '=' argument.toList = some (key.toList, value.toList) :=
  cutFirst?_eq_some_iff.mpr ⟨by simp [h.text], h.whole⟩

theorem read_eq_ok_iff : read argument = .ok (key, value) ↔ Assigns argument key value := by
  constructor
  · intro h
    unfold read at h
    split at h
    next c t after hcut =>
      obtain ⟨htext, whole⟩ := cutFirst?_eq_some_iff.mp hcut
      cases h
      refine ⟨by simp [← String.toList_inj], by simpa using whole, ?_⟩
      simp [← String.toList_inj, htext]
    next => contradiction
  · intro h
    have hne : key.toList ≠ [] := by simpa using h.key_ne
    obtain ⟨c, t, hkey⟩ := List.exists_cons_of_ne_nil hne
    have hcut := h.cutFirst?_eq
    rw [hkey] at hcut
    simp only [read, hcut]
    rw [← hkey, String.ofList_toList, String.ofList_toList]

/-- An argument is refused for want of an equals sign or of a key before it. -/
theorem read_eq_error_iff {e : Failure} : read argument = .error e ↔
    ('=' ∉ argument.toList ∨ argument.toList.head? = some '=') ∧
      e = .propertyArgument argument := by
  unfold read
  cases hcut : cutFirst? '=' argument.toList with
  | none =>
    have whole := cutFirst?_eq_none_iff.mp hcut
    simp [whole, eq_comm]
  | some parts =>
    obtain ⟨before, after⟩ := parts
    obtain ⟨htext, whole⟩ := cutFirst?_eq_some_iff.mp hcut
    cases before with
    | nil => simp [htext, eq_comm]
    | cons c key =>
      have hc : c ≠ '=' := fun h => whole (by simp [h])
      simp [htext, hc]

theorem readAll_eq_mapM : readAll arguments = arguments.mapM read := by
  induction arguments with
  | nil => rfl
  | cons argument arguments ih => rw [readAll, List.mapM_cons, ih]

theorem readAll_eq_ok_iff : readAll arguments = .ok entries ↔
    List.Forall₂ (fun argument entry => Assigns argument entry.1 entry.2) arguments entries := by
  simp only [readAll_eq_mapM, mapM_eq_ok_iff, ← read_eq_ok_iff, Prod.eta]

/-- The first argument that is refused is named, whatever comes after it. -/
theorem exists_of_readAll_error {e : Failure} (h : readAll arguments = .error e) :
    ∃ before bad after, arguments = before ++ bad :: after ∧
      (∀ argument ∈ before, ∃ key value, Assigns argument key value) ∧
      ('=' ∉ bad.toList ∨ bad.toList.head? = some '=') ∧ e = .propertyArgument bad := by
  rw [readAll_eq_mapM] at h
  obtain ⟨before, bad, after, harguments, good, hbad⟩ := exists_of_mapM_error h
  refine ⟨before, bad, after, harguments, fun argument hmem => ?_, read_eq_error_iff.mp hbad⟩
  obtain ⟨⟨key, value⟩, hread⟩ := good argument hmem
  exact ⟨key, value, read_eq_ok_iff.mp hread⟩

end PropertyArgument

end PathFilter
