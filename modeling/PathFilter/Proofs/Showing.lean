import PathFilter.Session
import PathFilter.Proofs.Traversal

namespace PathFilter

namespace Markup

variable {t : List Char}

/-- Every tag has a bracket. -/
theorem tag?_eq_none (plain : '[' ∉ t) : tag? t = none := by
  unfold tag?
  split
  next c rest hdrop =>
    have hmem : '[' ∈ t.dropWhile (· == '\\') := by simp [hdrop]
    exact absurd ((List.dropWhile_sublist _).subset hmem) plain
  next => rfl

theorem firstTag?_eq_none (plain : '[' ∉ t) : firstTag? t = none := by
  induction t with
  | nil => rfl
  | cons c t ih =>
    have rest : '[' ∉ t := fun h => plain (List.mem_cons_of_mem c h)
    simp [firstTag?, tag?_eq_none plain, ih rest]

end Markup

theorem withoutMarkup_of_plain {t : List Char} (plain : '[' ∉ t) (words : Vocabulary) :
    withoutMarkup words t = .ok (Markup.shown words t) := by
  unfold withoutMarkup
  cases t with
  | nil => rfl
  | cons c t => simp [Markup.reveal, Markup.firstTag?_eq_none plain]

namespace Display

variable {t : Terminal}

theorem printed_append (lines more : List (List Char)) :
    printed (lines ++ more) = printed lines ++ printed more := by
  rw [printed, List.flatMap_append, String.ofList_append]
  rfl

theorem markedLines_of_plain {s : String} (plain : '[' ∉ s.toList) :
    markedLines t s = .ok (ScreenLines.ofText .fold t.width (Markup.shown t.words s.toList)) := by
  rw [markedLines, unmarked, withoutMarkup_of_plain plain]
  rfl

theorem exists_hintLines {command : String} (plain : '[' ∉ command.toList) (e : ErrorInfo) :
    ∃ lines, hintLines t command e = .ok lines := by
  unfold hintLines
  split
  next => exact ⟨_, rfl⟩
  next =>
    split
    next => exact ⟨_, markedLines_of_plain (by simp [plain])⟩
    next => exact ⟨[], rfl⟩

/-- A failure is told first, then what else there is to say of it. -/
theorem exists_errorLines {command : String} (plain : '[' ∉ command.toList)
    (settings : DisplaySettings) (e : ErrorInfo) : ∃ more, errorLines t settings command (some e) =
      .ok (textLines t (title e.type ++ ": " ++ e.message) ++ more) := by
  obtain ⟨hints, hhints⟩ := @exists_hintLines t command plain e
  simp only [errorLines, hhints]
  cases settings.quiet with
  | true => exact ⟨[] ++ [], congrArg Except.ok (List.append_assoc _ _ _)⟩
  | false =>
    exact ⟨hints ++ detailLines t settings e, congrArg Except.ok (List.append_assoc _ _ _)⟩

end Display

/-- The report is written on a line if the output takes it. -/
theorem Report.display_of_json {t : Terminal} (takes : t.TakesAll) {settings : DisplaySettings}
    (hformat : settings.format = .json) (r : Report) :
    r.display t settings = .ok ⟨Json.line r.toValue ++ "\n", ""⟩ := by
  simp only [display, hformat, takes _]

/-- A failure can be shown whatever has failed, if the output takes what is written. -/
theorem Report.exists_display_failure {t : Terminal} (takes : t.TakesAll) {command : String}
    (plain : '[' ∉ command.toList) (warnings : List String) (d : Diagnosis)
    (settings : DisplaySettings) :
    ∃ screen, (failure command warnings d).display t settings = .ok screen := by
  cases hformat : settings.format with
  | json => exact ⟨_, display_of_json takes hformat _⟩
  | table =>
    obtain ⟨more, hlines⟩ := @Display.exists_errorLines t command plain settings d.info
    exact ⟨_, by simp only [display, hformat, failure, hlines]; rfl⟩

namespace MatchSummary

variable (m : MatchSummary)

@[simp] theorem field?_results :
    m.toValue.field? "results" = some (.list (m.listed.map verdictValue)) := rfl

@[simp] theorem field?_matched : m.toValue.field? "matched" = some (.int m.matched) := rfl

@[simp] theorem field?_total : m.toValue.field? "total" = some (.int m.total) := rfl

end MatchSummary

/-- No bracket is a digit. -/
theorem bracket_notMem_repr (n : Nat) : '[' ∉ (n : Int).repr.toList := by
  intro h
  rw [show (n : Int).repr = n.repr from rfl, Nat.toList_repr] at h
  have hdigit := Nat.isDigit_of_mem_toDigits (by decide) (by decide) h
  contradiction

namespace Display

variable {t : Terminal}

def verdictCells (entry : String × Bool) : List (List Char) :=
  [entry.1.toList, (if entry.2 then "yes" else "no").toList]

/-- The table of some verdicts. Where there are none, its one row says so. -/
def verdictGrid (t : Terminal) (listed : List (String × Bool)) : List (List Char) :=
  Grid.table (t.box .heavyHead) t.width [⟨"path", false⟩, ⟨"matched", false⟩]
    (if listed = [] then [["No paths".toList, []]] else listed.map verdictCells)

theorem verdictRow_verdictValue (entry : String × Bool) :
    verdictRow (MatchSummary.verdictValue entry) = .ok (verdictCells entry) :=
  rfl

theorem verdictTable_eq {data : Value} {listed : List (String × Bool)}
    (h : data.field? "results" = some (.list (listed.map MatchSummary.verdictValue))) :
    verdictTable t data = .ok (verdictGrid t listed) := by
  have hrows : (listed.map MatchSummary.verdictValue).mapM verdictRow =
      .ok (listed.map verdictCells) := by
    rw [List.mapM_map]
    exact mapM_eq_ok_map fun entry _ => verdictRow_verdictValue entry
  by_cases hlisted : listed = []
  · simp [verdictTable, verdictGrid, h, Value.holds, hlisted, bind, Except.bind, pure, Except.pure]
  · have hholds : (listed.map MatchSummary.verdictValue).isEmpty = false := by simp [hlisted]
    simp only [verdictTable, verdictGrid, h, Option.any_some, Value.holds, hholds, Bool.not_false,
      ↓reduceIte, rowsOf, bind, Except.bind, hrows, if_neg hlisted, pure, Except.pure]

theorem exists_summaryLines (settings : DisplaySettings) (m : MatchSummary)
    (warnings : List String) (filter : Option String) :
    ∃ lines, summaryLines t settings (.success "match" m.toValue warnings filter) = .ok lines := by
  unfold summaryLines
  split
  next =>
    refine ⟨_, markedLines_of_plain ?_⟩
    simp [Report.success, fieldText, Value.shown, Value.described, bracket_notMem_repr]
  next => exact ⟨[], rfl⟩

end Display

/-- What has succeeded can be shown when both of its parts can, if the output takes what is
written. -/
theorem Report.exists_display_success {t : Terminal} (takes : t.TakesAll) {r : Report}
    {settings : DisplaySettings} (ok : r.ok = true) {result summary : List (List Char)}
    (hresult : Display.resultLines t r = .ok result)
    (hsummary : Display.summaryLines t settings r = .ok summary) :
    ∃ screen, r.display t settings = .ok screen := by
  cases hformat : settings.format with
  | json => exact ⟨_, display_of_json takes hformat r⟩
  | table =>
    simp only [display, hformat, ok, hresult, hsummary, ↓reduceIte, bind, Except.bind, takes _]
    exact ⟨_, rfl⟩

/-- What `match` has found can be shown. -/
theorem Report.exists_display_match {t : Terminal} (takes : t.TakesAll) (m : MatchSummary)
    (warnings : List String) (filter : Option String) (settings : DisplaySettings) :
    ∃ screen, (success "match" m.toValue warnings filter).display t settings = .ok screen := by
  obtain ⟨summary, hsummary⟩ := @Display.exists_summaryLines t settings m warnings filter
  have hresult : Display.resultLines t (success "match" m.toValue warnings filter) =
      Display.verdictTable t m.toValue := by
    simp [Display.resultLines, success]
  exact exists_display_success takes rfl
    (hresult.trans (Display.verdictTable_eq m.field?_results)) hsummary

end PathFilter
