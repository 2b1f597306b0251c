import PathFilter.Proofs.JsonReading
import PathFilter.Proofs.MatchCourse
import PathFilter.Proofs.Showing

namespace PathFilter

namespace ScreenLines

variable (overflow : Overflow) (width : Nat)

theorem breakLine_ne_nil (line : List Char) : breakLine overflow width line ≠ [] := by
  simp [breakLine, Filling.lines]

/-- Even a text without characters has a line. -/
theorem ofText_ne_nil (t : List Char) : ofText overflow width t ≠ [] := by
  have hcut : cutAt (· == '\n') (visible t) ≠ [] := by
    rw [cutAt_eq_splitOnP]
    exact List.splitOnP_ne_nil _ _
  obtain ⟨line, lines, hlines⟩ := List.exists_cons_of_ne_nil hcut
  simp [ofText, hlines, breakLine_ne_nil]

end ScreenLines

theorem Grid.table_ne_nil (box : Box) (screen : Nat) (columns : List Column)
    (rows : List (List (List Char))) : table box screen columns rows ≠ [] := by
  simp [table]

namespace Display

variable {t : Terminal}

theorem printed_eq_empty_iff {lines : List (List Char)} : printed lines = "" ↔ lines = [] := by
  cases lines with
  | nil => simp [printed]
  | cons line lines => simp [printed, ← String.toList_inj]

theorem segmentTable_ne_nil {data : Value} {lines : List (List Char)}
    (h : segmentTable t data = .ok lines) : lines ≠ [] := by
  simp only [segmentTable, bind_eq_ok_iff] at h
  obtain ⟨values, -, rows, -, indices, -, kinds, -, h⟩ := h
  rw [← Except.ok.inj h]
  exact Grid.table_ne_nil _ _ _ _

theorem verdictTable_ne_nil {data : Value} {lines : List (List Char)}
    (h : verdictTable t data = .ok lines) : lines ≠ [] := by
  unfold verdictTable at h
  split at h
  next =>
    obtain ⟨values, -, h⟩ := bind_eq_ok_iff.mp h
    obtain ⟨rows, -, h⟩ := bind_eq_ok_iff.mp h
    rw [← Except.ok.inj h]
    exact Grid.table_ne_nil _ _ _ _
  next =>
    rw [← Except.ok.inj h]
    exact Grid.table_ne_nil _ _ _ _

theorem textLines_ne_nil (t : Terminal) (s : String) : textLines t s ≠ [] :=
  ScreenLines.ofText_ne_nil _ _ _

/-- A result takes up some lines, whatever it is. -/
theorem resultLines_ne_nil {r : Report} {lines : List (List Char)}
    (h : resultLines t r = .ok lines) : lines ≠ [] := by
  unfold resultLines at h
  split_ifs at h
  · exact Except.ok.inj h ▸ textLines_ne_nil t _
  · exact segmentTable_ne_nil h
  · exact verdictTable_ne_nil h
  · exact Except.ok.inj h ▸ textLines_ne_nil t _

end Display

/-- As tables for a reader, only what has failed leaves the output empty. -/
theorem Report.stdout_of_table {t : Terminal} {settings : DisplaySettings} {r : Report}
    {screen : Screen} (hformat : settings.format = .table)
    (h : r.display t settings = .ok screen) : screen.stdout = "" ↔ r.ok = false := by
  simp only [display, hformat] at h
  cases hok : r.ok with
  | true =>
    simp only [hok, ↓reduceIte, bind_eq_ok_iff] at h
    obtain ⟨result, hresult, h⟩ := h
    split at h
    next => contradiction
    next =>
      obtain ⟨summary, -, h⟩ := bind_eq_ok_iff.mp h
      rw [← Except.ok.inj h]
      simpa [Display.printed_eq_empty_iff] using Display.resultLines_ne_nil hresult
  | false =>
    simp only [hok, Bool.false_eq_true, ↓reduceIte, bind_eq_ok_iff] at h
    obtain ⟨lines, -, h⟩ := h
    rw [← Except.ok.inj h]
    simp

theorem exists_of_mem_segmentValues {index : Nat} {segments : List Expr} {v : Value}
    (h : v ∈ segmentValues index segments) :
    ∃ (i : Nat) (e : Expr), e ∈ segments ∧ v = segmentValue i e := by
  induction segments generalizing index with
  | nil => contradiction
  | cons e segments ih =>
    rw [segmentValues, List.mem_cons] at h
    obtain rfl | h := h
    · exact ⟨index, e, List.mem_cons_self, rfl⟩
    · obtain ⟨i, d, hd, hv⟩ := ih h
      exact ⟨i, d, List.mem_cons_of_mem e hd, hv⟩

theorem ValidSegments.isForeign_eq_false {segments : List Expr} (valid : ValidSegments segments)
    {e : Expr} (h : e ∈ segments) : e.isForeign = false := by
  induction valid with
  | nil => contradiction
  | cons head _ ih =>
    obtain rfl | h := List.mem_cons.mp h
    · cases head <;> rfl
    · exact ih h

theorem Expr.bracket_notMem_kind {e : Expr} (known : e.isForeign = false) :
    '[' ∉ e.kind.name.toList := by
  cases e with
  | foreign f => contradiction
  | _ =>
    rw [kind]
    decide

namespace Display

variable {t : Terminal}

theorem exists_unmarked {s : String} (plain : '[' ∉ s.toList) :
    ∃ shown, unmarked t s = .ok shown :=
  ⟨_, by rw [unmarked, withoutMarkup_of_plain plain]; rfl⟩

/-- The table of the segments of a filter has markup in no cell. -/
theorem exists_segmentTable (f : Filter) : ∃ lines, segmentTable t (.fields
    [("filter", .text f.text), ("segments", .list (segmentValues 0 f.segments))]) = .ok lines := by
  have hrow : ∀ v ∈ segmentValues 0 f.segments, ∃ row, segmentRow v = .ok row ∧
      '[' ∉ row.index.toList ∧ '[' ∉ row.kind.toList := by
    intro v hv
    obtain ⟨i, e, he, rfl⟩ := exists_of_mem_segmentValues hv
    have known := (validateSegments_iff.mp f.valid).isForeign_eq_false he
    exact ⟨_, rfl, bracket_notMem_repr i, Expr.bracket_notMem_kind known⟩
  obtain ⟨rows, hrows, plain⟩ := exists_mapM_ok hrow
  obtain ⟨indices, hindices, -⟩ := exists_mapM_ok (P := fun _ => True) fun row hmem =>
    (exists_unmarked (t := t) (plain row hmem).1).imp fun _ h => ⟨h, trivial⟩
  obtain ⟨kinds, hkinds, -⟩ := exists_mapM_ok (P := fun _ => True) fun row hmem =>
    (exists_unmarked (t := t) (plain row hmem).2).imp fun _ h => ⟨h, trivial⟩
  refine ⟨_, bind_eq_ok_iff.mpr ⟨_, rfl, bind_eq_ok_iff.mpr ⟨rows, hrows,
    bind_eq_ok_iff.mpr ⟨indices, hindices, bind_eq_ok_iff.mpr ⟨kinds, hkinds, rfl⟩⟩⟩⟩⟩

end Display

theorem exists_display_performParse {t : Terminal} (takes : t.TakesAll) (floor : LogLevel)
    (filter : String) (settings : DisplaySettings) :
    ∃ screen, (performParse floor filter).report.display t settings = .ok screen := by
  unfold performParse
  split
  next => exact Report.exists_display_failure takes (by decide) _ _ settings
  next f _ =>
    obtain ⟨lines, hlines⟩ := Display.exists_segmentTable (t := t) f
    exact Report.exists_display_success takes rfl hlines rfl

theorem MatchCourse.exists_display {t : Terminal} (takes : t.TakesAll) {floor : LogLevel}
    {r : MatchRequest} {paths : List String} {p : Performance} (h : MatchCourse floor r paths p)
    (settings : DisplaySettings) : ∃ screen, p.report.display t settings = .ok screen := by
  cases h with
  | answered => exact Report.exists_display_match takes _ _ _ settings
  | _ => exact Report.exists_display_failure takes (by decide) _ _ settings

/-- The report of a command can be shown, whatever the command, if the output takes what is
written. -/
theorem exists_display_perform {s : Surroundings} (takes : s.terminal.TakesAll) (floor : LogLevel)
    (request : Request) (settings : DisplaySettings) :
    ∃ screen, (perform s floor request).report.display s.terminal settings = .ok screen := by
  cases request with
  | version => exact Report.exists_display_success takes rfl rfl rfl
  | parse filter => exact exists_display_performParse takes floor filter settings
  | matching r => exact (matchCourse_performMatch floor r s.stdin).exists_display takes settings

namespace Value

attribute [simp] IsData.null IsData.bool IsData.int IsData.text

@[simp] theorem isData_list_iff {items : List Value} :
    (list items).IsData ↔ ∀ v ∈ items, v.IsData :=
  ⟨fun | .list h => h, .list⟩

@[simp] theorem isData_fields_iff {entries : List (String × Value)} :
    (fields entries).IsData ↔ ∀ entry ∈ entries, entry.2.IsData :=
  ⟨fun | .fields h => h, .fields⟩

@[simp] theorem isData_ofOption (s : Option String) : (ofOption s).IsData := by
  cases s <;> simp [ofOption]

end Value

/-- Nothing in a report is of a type that JSON does not have. -/
structure Report.IsData (r : Report) : Prop where
  data : r.data.IsData
  details : ∀ e, r.error = some e → ∀ details, e.details = some details → details.IsData

namespace Report

variable {r : Report}

theorem isData_toValue (h : r.IsData) : r.toValue.IsData := by
  have herror : ((r.error.map ErrorInfo.toValue).getD .null).IsData := by
    cases he : r.error with
    | none => simp
    | some e =>
      cases hdetails : e.details with
      | none => simp [ErrorInfo.toValue, hdetails]
      | some details => simp [ErrorInfo.toValue, hdetails, h.details e he details hdetails]
  simp [toValue, h.data, herror]

theorem isData_success {command : String} {data : Value} (h : data.IsData) (warnings : List String)
    (filter : Option String) : (success command data warnings filter).IsData :=
  ⟨h, nofun⟩

theorem isData_failure (command : String) (warnings : List String) (e : Failure) :
    (failure command warnings e.diagnosis).IsData := by
  refine ⟨.null, fun info hinfo details hdetails => ?_⟩
  obtain rfl := Option.some.inj hinfo
  cases e with
  | malformedFilter e =>
    obtain ⟨pos, -, rfl⟩ := Option.map_eq_some_iff.mp hdetails
    simp
  | invalidFilter e =>
    obtain ⟨fragment, -, rfl⟩ := Option.map_eq_some_iff.mp hdetails
    simp
  | propertyArgument argument =>
    obtain rfl := Option.some.inj hdetails
    simp
  | matching e => cases e <;> contradiction
  | notText => contradiction
  | properties => contradiction

end Report

theorem MatchSummary.isData_toValue (m : MatchSummary) : m.toValue.IsData := by
  have hentry : ∀ v ∈ m.listed.map verdictValue, v.IsData :=
    List.forall_mem_map.mpr fun entry _ => by simp [verdictValue]
  simpa [toValue] using hentry

theorem MatchCourse.isData {floor : LogLevel} {r : MatchRequest} {paths : List String}
    {p : Performance} (h : MatchCourse floor r paths p) : p.report.IsData := by
  cases h with
  | answered => exact Report.isData_success (MatchSummary.isData_toValue _) _ _
  | _ => exact Report.isData_failure _ _ _

/-- The line on which a report is written, for each time that it may take: what is read from it are
the fields of the report. -/
structure Report.Written (r : Report) (line : Int → String) : Prop where
  unbroken : ∀ ms, ∀ c ∈ (line ms).toList, 0x20 ≤ c.toNat
  reads : ∀ ms, Json.read? (line ms) = some (.fields [
    ("ok", .bool r.ok),
    ("command", .text r.command),
    ("data", r.data),
    ("warnings", .list (r.warnings.map .text)),
    ("meta", .fields [("durationMs", .int ms), ("filter", .ofOption r.filter)]),
    ("error", match r.error with
      | none => .null
      | some e => .fields [("type", .text e.type), ("message", .text e.message),
          ("hint", .ofOption e.hint), ("details", e.details.getD .null)])])

theorem Report.IsData.written {r : Report} (h : r.IsData) :
    r.Written fun ms => Json.line (r.after ms).toValue := by
  have data (ms : Int) : (r.after ms).toValue.IsData := isData_toValue ⟨h.data, h.details⟩
  refine ⟨fun ms => Json.unbroken_line (data ms), fun ms => ?_⟩
  rw [Json.read?_line (data ms)]
  cases hr : r.error <;> simp [toValue, after, hr, ErrorInfo.toValue]

section

variable (floor floor' : LogLevel)

end

end PathFilter
