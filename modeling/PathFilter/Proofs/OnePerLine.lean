import PathFilter.Command
import PathFilter.Proofs.PathForm
import Mathlib.Data.List.TakeWhile

namespace PathFilter

/-- The ways to end a line. -/
inductive LineEnd : List Char → Prop
  | lineFeed : LineEnd ['\n']
  | both : LineEnd ['\r', '\n']
  | carriageReturn : LineEnd ['\r']

/-- White space that ends no line. -/
def Padding (t : List Char) : Prop := ∀ c ∈ t, isBlank c = true ∧ isLineEnd c = false

instance (t : List Char) : Decidable (Padding t) :=
  List.decidableBAll (fun c => isBlank c = true ∧ isLineEnd c = false) t

/-- The text holds a row of words, each on a line of its own and with any white space around it.
Blank lines may stand anywhere, and the last line need not be ended. -/
inductive OnePerLine : List (List Char) → List Char → Prop
  | nil {pad : List Char} (blank : Padding pad) : OnePerLine [] pad
  | last {before after : List Char} (word : List Char) (left : Padding before)
      (right : Padding after) : OnePerLine [word] (before ++ word ++ after)
  | blank {pad ending t : List Char} {words : List (List Char)} (blank : Padding pad)
      (ended : LineEnd ending) (rest : OnePerLine words t) :
      OnePerLine words (pad ++ ending ++ t)
  | line {before after ending t : List Char} {words : List (List Char)} (word : List Char)
      (left : Padding before) (right : Padding after) (ended : LineEnd ending)
      (rest : OnePerLine words t) :
      OnePerLine (word :: words) (before ++ word ++ after ++ ending ++ t)

/-- A word that fills a line and is the same when its line is stripped of white space. -/
structure StandsAlone (word : List Char) : Prop where
  nonempty : word ≠ []
  unbroken : '\n' ∉ word ∧ '\r' ∉ word
  first : ∀ c, word.head? = some c → isBlank c = false
  last : ∀ c, word.getLast? = some c → isBlank c = false

section

variable {before after word t ending : List Char} {c : Char}

theorem StandsAlone.isLineEnd_eq_false (alone : StandsAlone word) :
    ∀ c ∈ word, isLineEnd c = false := by
  intro c hc
  have hfeed : c ≠ '\n' := by rintro rfl; exact alone.unbroken.1 hc
  have hreturn : c ≠ '\r' := by rintro rfl; exact alone.unbroken.2 hc
  simp [isLineEnd, hfeed, hreturn]

theorem strip_of_padding (h : Padding t) : strip t = [] := by
  rw [strip, List.dropWhile_eq_nil_iff.mpr fun c hc => (h c hc).1, dropEndWhile]

theorem strip_padded (left : Padding before) (right : Padding after) (alone : StandsAlone word) :
    strip (before ++ word ++ after) = word := by
  obtain ⟨c, rest, rfl⟩ := List.exists_cons_of_ne_nil alone.nonempty
  have hfirst : isBlank c = false := alone.first c rfl
  have hdrop : (before ++ (c :: rest) ++ after).dropWhile isBlank = c :: rest ++ after := by
    rw [List.append_assoc, List.dropWhile_append_of_pos fun d hd => (left d hd).1,
      List.cons_append, List.dropWhile_cons_of_neg (by simp [hfirst])]
  rw [strip, hdrop, dropEndWhile_append_of_all fun d hd => (right d hd).1,
    dropEndWhile_eq_self alone.last]

theorem strippedLines_append_cons (hc : isLineEnd c = true) (t u : List Char) :
    strippedLines (t ++ c :: u) = strippedLines t ++ strippedLines u := by
  simp only [strippedLines, cutAt_eq_splitOnP]
  rw [List.splitOnP_append_cons t u hc, List.map_append, List.filter_append]

theorem strippedLines_of_unbroken (h : ∀ c ∈ t, isLineEnd c = false) :
    strippedLines t = if strip t = [] then [] else [strip t] := by
  rw [strippedLines, cutAt_eq_splitOnP, List.splitOnP_eq_singleton h]
  cases hstrip : strip t <;> simp [hstrip]

theorem strippedLines_of_padding (h : Padding t) : strippedLines t = [] := by
  rw [strippedLines_of_unbroken fun c hc => (h c hc).2, strip_of_padding h, if_pos rfl]

theorem strippedLines_padded (left : Padding before) (right : Padding after)
    (alone : StandsAlone word) : strippedLines (before ++ word ++ after) = [word] := by
  have hunbroken : ∀ c ∈ before ++ word ++ after, isLineEnd c = false := by
    simp only [List.forall_mem_append]
    exact ⟨⟨fun c hc => (left c hc).2, alone.isLineEnd_eq_false⟩, fun c hc => (right c hc).2⟩
  rw [strippedLines_of_unbroken hunbroken, strip_padded left right alone, if_neg alone.nonempty]

/-- Each way to end a line parts what stands before it from what stands after it, and an empty line
between a carriage return and a line feed does not count. -/
theorem strippedLines_append (ended : LineEnd ending) (t u : List Char) :
    strippedLines (t ++ ending ++ u) = strippedLines t ++ strippedLines u := by
  rw [List.append_assoc]
  cases ended with
  | lineFeed => exact strippedLines_append_cons rfl t u
  | carriageReturn => exact strippedLines_append_cons rfl t u
  | both =>
    have hempty : strippedLines ('\n' :: u) = strippedLines u :=
      strippedLines_append_cons rfl [] u
    rw [List.cons_append, strippedLines_append_cons rfl, List.singleton_append, hempty]

end

theorem strippedLines_of_onePerLine {words : List (List Char)} {t : List Char}
    (h : OnePerLine words t) (alone : ∀ word ∈ words, StandsAlone word) :
    strippedLines t = words := by
  induction h with
  | nil blank => exact strippedLines_of_padding blank
  | last word left right =>
    exact strippedLines_padded left right (alone word (List.mem_singleton_self word))
  | blank blank ended _ ih =>
    rw [strippedLines_append ended, strippedLines_of_padding blank, ih alone, List.nil_append]
  | line word left right ended _ ih =>
    obtain ⟨hword, hwords⟩ := List.forall_mem_cons.mp alone
    rw [strippedLines_append ended, strippedLines_padded left right hword, ih hwords,
      List.singleton_append]

section

variable {p : Char → Bool} {t : List Char}

theorem exists_dropEndWhile_append (p : Char → Bool) (t : List Char) :
    ∃ after, t = dropEndWhile p t ++ after ∧ ∀ c ∈ after, p c = true := by
  induction t with
  | nil => exact ⟨[], rfl, nofun⟩
  | cons c t ih =>
    obtain ⟨after, ht, hafter⟩ := ih
    rw [dropEndWhile]
    cases hrest : dropEndWhile p t with
    | nil =>
      obtain rfl : t = after := by rwa [hrest] at ht
      cases hc : p c with
      | true => exact ⟨c :: t, by simp, List.forall_mem_cons.mpr ⟨hc, hafter⟩⟩
      | false => exact ⟨t, by simp, hafter⟩
    | cons d rest =>
      rw [hrest] at ht
      exact ⟨after, by rw [ht]; rfl, hafter⟩

theorem getLast?_dropEndWhile (t : List Char) :
    ∀ c, (dropEndWhile p t).getLast? = some c → p c = false := by
  induction t with
  | nil => nofun
  | cons c t ih =>
    intro d hd
    rw [dropEndWhile] at hd
    cases hrest : dropEndWhile p t with
    | nil =>
      rw [hrest] at hd
      cases hc : p c with
      | true => simp [hc] at hd
      | false =>
        obtain rfl : c = d := by simpa [hc] using hd
        exact hc
    | cons e rest =>
      rw [hrest] at hd ih
      exact ih d (by rwa [List.getLast?_cons_cons] at hd)

/-- A line is a word with white space around it, or blank. -/
theorem exists_padded (h : ∀ c ∈ t, isLineEnd c = false) :
    ∃ before after, t = before ++ strip t ++ after ∧ Padding before ∧ Padding after := by
  obtain ⟨after, hdrop, hafter⟩ := exists_dropEndWhile_append isBlank (t.dropWhile isBlank)
  have ht : t = t.takeWhile isBlank ++ strip t ++ after := by
    rw [List.append_assoc, strip, ← hdrop, List.takeWhile_append_dropWhile]
  refine ⟨_, after, ht, fun c hc => ⟨?_, ?_⟩, fun c hc => ⟨hafter c hc, ?_⟩⟩
  · exact List.mem_takeWhile_imp hc
  · exact h c ((List.takeWhile_sublist _).subset hc)
  · exact h c (by rw [ht]; simp [hc])

theorem standsAlone_strip (h : ∀ c ∈ t, isLineEnd c = false) (nonempty : strip t ≠ []) :
    StandsAlone (strip t) := by
  obtain ⟨before, after, ht, -, -⟩ := exists_padded h
  have hunbroken : ∀ c ∈ strip t, isLineEnd c = false := fun c hc => h c (by rw [ht]; simp [hc])
  refine ⟨nonempty, ⟨fun hc => ?_, fun hc => ?_⟩, fun c hc => ?_, getLast?_dropEndWhile _⟩
  · cases hunbroken _ hc
  · cases hunbroken _ hc
  · obtain ⟨after, hdrop, -⟩ := exists_dropEndWhile_append isBlank (t.dropWhile isBlank)
    have hhead : (t.dropWhile isBlank).head? = some c := by
      rw [hdrop, List.head?_append]
      exact Option.or_eq_some_iff.mpr (.inl hc)
    have hnot := List.head?_dropWhile_not isBlank t
    rw [hhead] at hnot
    simpa using hnot

end

/-- A text without line ends holds its one line, or nothing. -/
theorem onePerLine_of_unbroken {t : List Char} (h : ∀ c ∈ t, isLineEnd c = false) :
    OnePerLine (strippedLines t) t := by
  obtain ⟨before, after, ht, left, right⟩ := exists_padded h
  rw [strippedLines_of_unbroken h]
  split
  next hblank =>
    rw [hblank, List.append_nil] at ht
    exact .nil fun c hc => by
      rw [ht, List.mem_append] at hc
      exact hc.elim (left c) (right c)
  next =>
    have hline := OnePerLine.last (strip t) left right
    rwa [← ht] at hline

/-- What a text without line ends holds stands in front of what follows the end of the line. -/
theorem OnePerLine.append {line ending t : List Char} {words : List (List Char)}
    (h : ∀ c ∈ line, isLineEnd c = false) (ended : LineEnd ending) (rest : OnePerLine words t) :
    OnePerLine (strippedLines line ++ words) (line ++ ending ++ t) := by
  obtain ⟨before, after, hline, left, right⟩ := exists_padded h
  rw [strippedLines_of_unbroken h]
  split
  next hblank =>
    rw [hblank, List.append_nil] at hline
    refine .blank (fun c hc => ?_) ended rest
    rw [hline, List.mem_append] at hc
    exact hc.elim (left c) (right c)
  next =>
    have hword := OnePerLine.line (strip line) left right ended rest
    rwa [← hline] at hword

theorem lineEnd_of_isLineEnd {c : Char} (h : isLineEnd c = true) : LineEnd [c] := by
  rw [isLineEnd, Bool.or_eq_true, beq_iff_eq, beq_iff_eq] at h
  obtain rfl | rfl := h
  · exact .lineFeed
  · exact .carriageReturn

/-- A text without line ends, or one that goes on behind the first of them. -/
theorem exists_first_line (t : List Char) :
    (∀ c ∈ t, isLineEnd c = false) ∨ ∃ line c rest, t = line ++ c :: rest ∧
      (∀ d ∈ line, isLineEnd d = false) ∧ isLineEnd c = true := by
  induction t with
  | nil => exact .inl nofun
  | cons c t ih =>
    cases hc : isLineEnd c with
    | true => exact .inr ⟨[], c, t, rfl, nofun, hc⟩
    | false =>
      obtain hall | ⟨line, d, rest, rfl, hline, hd⟩ := ih
      · exact .inl (List.forall_mem_cons.mpr ⟨hc, hall⟩)
      · exact .inr ⟨c :: line, d, rest, rfl, List.forall_mem_cons.mpr ⟨hc, hline⟩, hd⟩

theorem standsAlone_of_unbroken {t : List Char} (h : ∀ c ∈ t, isLineEnd c = false) :
    ∀ word ∈ strippedLines t, StandsAlone word := by
  rw [strippedLines_of_unbroken h]
  split
  next => nofun
  next hword =>
    rintro word hmem
    rw [List.mem_singleton.mp hmem]
    exact standsAlone_strip h hword

/-- Every text holds its lines without the white space around them, one per line. -/
theorem onePerLine_strippedLines (t : List Char) :
    OnePerLine (strippedLines t) t ∧ ∀ word ∈ strippedLines t, StandsAlone word := by
  induction hlength : t.length using Nat.strong_induction_on generalizing t with
  | _ length ih =>
    obtain hall | ⟨line, c, rest, rfl, hline, hc⟩ := exists_first_line t
    · exact ⟨onePerLine_of_unbroken hall, standsAlone_of_unbroken hall⟩
    · have hlt : rest.length < length := by
        rw [← hlength, List.length_append, List.length_cons]
        omega
      obtain ⟨hrest, halone⟩ := ih rest.length hlt rest rfl
      rw [strippedLines_append_cons hc]
      refine ⟨?_, List.forall_mem_append.mpr ⟨standsAlone_of_unbroken hline, halone⟩⟩
      simpa using OnePerLine.append hline (lineEnd_of_isLineEnd hc) hrest

theorem stdinPaths_of_onePerLine {paths : List String} {stdin : String}
    (h : OnePerLine (paths.map String.toList) stdin.toList)
    (alone : ∀ path ∈ paths, StandsAlone path.toList) : stdinPaths stdin = paths := by
  rw [stdinPaths, strippedLines_of_onePerLine h (List.forall_mem_map.mpr alone), List.map_map]
  simp [Function.comp_def]

end PathFilter
