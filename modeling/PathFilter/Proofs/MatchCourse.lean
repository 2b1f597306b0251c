import PathFilter.Proofs.Acceptance
import PathFilter.Proofs.PathForm
import PathFilter.Proofs.PropertyArguments

namespace PathFilter

/-- The command has failed: there is nothing beside the error in its report. -/
structure Performance.Fails (p : Performance) (kind : String) (e : Failure) : Prop where
  exitCode : p.exitCode = 2
  command : p.report.command = "match"
  ok : p.report.ok = false
  data : p.report.data = .null
  warnings : p.report.warnings = []
  error : p.report.error = some e.diagnosis.info
  kind : e.diagnosis.info.type = kind
  message : e.diagnosis.info.message = e.message

/-- The command has a verdict on each of the paths, counts the paths that are selected, and lists
all of them or only those. -/
structure Performance.Answers (p : Performance) (r : MatchRequest) (paths : List String)
    (verdict : String → Bool) : Prop where
  exitCode : p.exitCode = if 0 < paths.countP verdict then 0 else 1
  command : p.report.command = "match"
  ok : p.report.ok = true
  error : p.report.error = none
  warnings : p.report.warnings = if paths = [] then ["No paths given."] else []
  data : p.report.data = .fields [
    ("filter", .text r.filter),
    ("results", .list ((paths.filter fun path => verdict path || !r.matchedOnly).map fun path =>
      .fields [("path", .text path), ("matched", .bool (verdict path))])),
    ("matched", .int (paths.countP verdict)),
    ("total", .int paths.length)]

/-- How `match` ends. What is refused first decides: the filter, then a property argument, then a
path. -/
inductive MatchOutcome (r : MatchRequest) (paths : List String) (p : Performance) : Prop
  | malformedFilter (e : SyntaxError) (refused : parseFilter r.filter = .error (.malformedFilter e))
      (fails : p.Fails "filter_syntax_error" (.malformedFilter e))
  | invalidFilter (e : ValidationError) (refused : parseFilter r.filter = .error (.invalidFilter e))
      (fails : p.Fails "filter_validation_error" (.invalidFilter e))
  | badProperty (segments : List Expr) (parsed : parseFilter r.filter = .ok segments)
      (before : List String) (bad : String) (after : List String)
      (arguments : r.properties = before ++ bad :: after)
      (good : ∀ argument ∈ before, ∃ key value, PropertyArgument.Assigns argument key value)
      (refused : '=' ∉ bad.toList ∨ bad.toList.head? = some '=')
      (fails : p.Fails "usage_error" (.propertyArgument bad))
  | badPath (segments : List Expr) (parsed : parseFilter r.filter = .ok segments)
      (entries : List (String × String))
      (assigned : List.Forall₂ (fun argument entry =>
        PropertyArgument.Assigns argument entry.1 entry.2) r.properties entries)
      (before : List String) (bad : String) (after : List String)
      (candidates : paths = before ++ bad :: after)
      (good : ∀ path ∈ before, path.toList.head? = some '/')
      (refused : bad.toList.head? ≠ some '/')
      (fails : p.Fails "invalid_path" (.matching (.invalidPath bad)))
  | answered (segments : List Expr) (parsed : parseFilter r.filter = .ok segments)
      (entries : List (String × String))
      (assigned : List.Forall₂ (fun argument entry =>
        PropertyArgument.Assigns argument entry.1 entry.2) r.properties entries)
      (verdict : String → Bool)
      (verdicts : ∀ path ∈ paths,
        matchPath segments path (.ofPairs entries) = .ok (verdict path))
      (answers : p.Answers r paths verdict)

theorem Failure.info_message (e : Failure) : e.diagnosis.info.message = e.message := by
  cases e with
  | matching e => cases e <;> rfl
  | _ => rfl

theorem Performance.Fails.of_failed {e : Failure} {kind : String} (code : e.diagnosis.exitCode = 2)
    (hkind : e.diagnosis.info.type = kind) (floor : LogLevel) (records : List LogRecord) :
    (failed floor "match" records e.diagnosis).Fails kind e :=
  ⟨code, rfl, rfl, rfl, rfl, rfl, hkind, e.info_message⟩

section

variable {floor : LogLevel} {f : Filter} {bag : PropertyBag} {path : String} {paths : List String}

theorem Filter.selectsPath_eq_ok_iff {b : Bool} :
    f.selectsPath path bag = .ok b ↔ matchPath f.segments path bag = .ok b :=
  mapError_eq_ok_iff

theorem Filter.exists_verdict (root : path.toList.head? = some '/') (f : Filter)
    (bag : PropertyBag) : ∃ b, f.selectsPath path bag = .ok b := by
  obtain ⟨rest, hrest⟩ := List.head?_eq_some_iff.mp root
  obtain ⟨b, hb⟩ := exists_matchPath_of_root f.valid hrest bag
  exact ⟨b, selectsPath_eq_ok_iff.mpr hb⟩

theorem Filter.selectsPath_of_not_root (h : path.toList.head? ≠ some '/') :
    f.selectsPath path bag = .error (.matching (.invalidPath path)) := by
  rw [Filter.selectsPath, matchPath_of_not_root h]
  rfl

/-- The verdict of a filter on a path; where there is none, any will do. -/
def Filter.verdictOn (f : Filter) (bag : PropertyBag) (path : String) : Bool :=
  (f.selectsPath path bag).toOption.getD false

theorem Filter.selectsPath_verdictOn (root : path.toList.head? = some '/') :
    f.selectsPath path bag = .ok (f.verdictOn bag path) := by
  obtain ⟨b, hb⟩ := f.exists_verdict root bag
  simp [verdictOn, hb, Except.toOption]

/-- Each path before the first that is refused has a verdict, and the log says which. -/
theorem verdicts_append {before : List String}
    (roots : ∀ path ∈ before, path.toList.head? = some '/') (rest : List String) :
    verdicts floor f bag (before ++ rest) =
      (LogRecord.kept floor
          (before.map fun path => f.verdictRecord path (f.verdictOn bag path)) ++
          (verdicts floor f bag rest).1,
        (verdicts floor f bag rest).2.map
          ((before.map fun path => (path, f.verdictOn bag path)) ++ ·)) := by
  induction before with
  | nil =>
    rw [List.nil_append]
    obtain ⟨records, found⟩ := verdicts floor f bag rest
    cases found <;> rfl
  | cons path before ih =>
    rw [List.forall_mem_cons] at roots
    obtain ⟨root, roots⟩ := roots
    rw [List.cons_append, verdicts, Filter.selectsPath_verdictOn root, ih roots, List.map_cons,
      LogRecord.kept_cons, List.append_assoc]
    obtain ⟨records, found⟩ := verdicts floor f bag rest
    cases found <;> rfl

theorem verdicts_of_roots (roots : ∀ path ∈ paths, path.toList.head? = some '/') :
    verdicts floor f bag paths =
      (LogRecord.kept floor (paths.map fun path => f.verdictRecord path (f.verdictOn bag path)),
        .ok (paths.map fun path => (path, f.verdictOn bag path))) := by
  have h := @verdicts_append floor f bag paths roots []
  simpa [verdicts, Except.map] using h

theorem verdicts_of_refused {before : List String}
    (roots : ∀ path ∈ before, path.toList.head? = some '/') {bad : String}
    (refused : bad.toList.head? ≠ some '/') (after : List String) :
    verdicts floor f bag (before ++ bad :: after) =
      (LogRecord.kept floor (before.map fun path => f.verdictRecord path (f.verdictOn bag path)),
        .error (.matching (.invalidPath bad))) := by
  have hbad : verdicts floor f bag (bad :: after) =
      ([], .error (.matching (.invalidPath bad))) := by
    rw [verdicts, Filter.selectsPath_of_not_root refused]
  rw [verdicts_append roots, hbad]
  simp [Except.map]

end

/-- What `match` finds when it has a verdict on each path. -/
def MatchRequest.summary (r : MatchRequest) (paths : List String) (verdict : String → Bool) :
    MatchSummary :=
  ⟨r.filter, paths.map fun path => (path, verdict path), r.matchedOnly⟩

/-- How `match` goes. What is refused first ends it: the filter, then a property argument, then a
path. -/
inductive MatchCourse (floor : LogLevel) (r : MatchRequest) (paths : List String) :
    Performance → Prop
  | filterRefused {e : Failure} (refused : parseFilter r.filter = .error e) :
      MatchCourse floor r paths (.failed floor "match" [] e.diagnosis)
  | propertiesRefused {segments : List Expr} (parsed : parseFilter r.filter = .ok segments)
      {e : Failure} (refused : PropertyArgument.readAll r.properties = .error e) :
      MatchCourse floor r paths
        (.failed floor "match"
          (LogRecord.kept floor [Filter.acceptedRecord ⟨r.filter, segments, parsed⟩]) e.diagnosis)
  | pathRefused {segments : List Expr} (parsed : parseFilter r.filter = .ok segments)
      {entries : List (String × String)}
      (read : PropertyArgument.readAll r.properties = .ok entries)
      {before after : List String} {bad : String} (candidates : paths = before ++ bad :: after)
      (roots : ∀ path ∈ before, path.toList.head? = some '/')
      (refused : bad.toList.head? ≠ some '/') (verdict : String → Bool)
      (verdicts : ∀ path ∈ before,
        matchPath segments path (.ofPairs entries) = .ok (verdict path)) :
      MatchCourse floor r paths
        (.failed floor "match"
          (LogRecord.kept floor
            (Filter.acceptedRecord ⟨r.filter, segments, parsed⟩ :: before.map fun path =>
              Filter.verdictRecord ⟨r.filter, segments, parsed⟩ path (verdict path)))
          (Failure.matching (.invalidPath bad)).diagnosis)
  | answered {segments : List Expr} (parsed : parseFilter r.filter = .ok segments)
      {entries : List (String × String)}
      (read : PropertyArgument.readAll r.properties = .ok entries)
      (verdict : String → Bool)
      (verdicts : ∀ path ∈ paths,
        matchPath segments path (.ofPairs entries) = .ok (verdict path)) :
      MatchCourse floor r paths
        { report := .success "match" (r.summary paths verdict).toValue
            (r.summary paths verdict).warnings (some r.filter)
          exitCode := (r.summary paths verdict).exitCode
          records := LogRecord.kept floor
            (Filter.acceptedRecord ⟨r.filter, segments, parsed⟩ ::
              (paths.map fun path =>
                Filter.verdictRecord ⟨r.filter, segments, parsed⟩ path (verdict path)) ++
              [(r.summary paths verdict).record]) }

section

variable {floor : LogLevel} {r : MatchRequest} {paths : List String} {verdict : String → Bool}

theorem MatchRequest.summary_matched :
    (r.summary paths verdict).matched = paths.countP verdict :=
  List.countP_map

theorem MatchRequest.summary_total : (r.summary paths verdict).total = paths.length :=
  List.length_map _

theorem MatchRequest.summary_listed : (r.summary paths verdict).listed =
    (paths.filter fun path => verdict path || !r.matchedOnly).map
      fun path => (path, verdict path) :=
  List.filter_map

theorem Performance.Answers.of_summary (records : List LogRecord) :
    Performance.Answers ⟨.success "match" (r.summary paths verdict).toValue
      (r.summary paths verdict).warnings (some r.filter), (r.summary paths verdict).exitCode,
      records⟩ r paths verdict := by
  refine ⟨?_, rfl, rfl, rfl, ?_, ?_⟩
  · simp only [MatchSummary.exitCode, MatchRequest.summary_matched]
    split <;> split <;> omega
  · simp [Report.success, MatchSummary.warnings, MatchRequest.summary]
  · simp only [Report.success, MatchSummary.toValue, MatchRequest.summary_matched,
      MatchRequest.summary_listed, MatchRequest.summary_total, List.map_map]
    rfl

theorem MatchCourse.outcome {p : Performance} (h : MatchCourse floor r paths p) :
    MatchOutcome r paths p := by
  cases h with
  | filterRefused refused =>
    obtain ⟨error, rfl⟩ | ⟨error, rfl⟩ := exists_of_parseFilter_error refused
    · exact .malformedFilter error refused (.of_failed rfl rfl _ _)
    · exact .invalidFilter error refused (.of_failed rfl rfl _ _)
  | propertiesRefused parsed refused =>
    obtain ⟨before, bad, after, harguments, good, hbad, rfl⟩ :=
      PropertyArgument.exists_of_readAll_error refused
    exact .badProperty _ parsed before bad after harguments good hbad (.of_failed rfl rfl _ _)
  | pathRefused parsed read candidates roots refused verdict verdicts =>
    exact .badPath _ parsed _ (PropertyArgument.readAll_eq_ok_iff.mp read) _ _ _ candidates roots
      refused (.of_failed rfl rfl _ _)
  | answered parsed read verdict verdicts =>
    exact .answered _ parsed _ (PropertyArgument.readAll_eq_ok_iff.mp read) verdict verdicts
      (.of_summary _)

end

/-- Each check is made only once those before it have passed. -/
theorem matchCourse_performMatch (floor : LogLevel) (r : MatchRequest) (stdin : String) :
    MatchCourse floor r (r.candidates stdin) (performMatch floor r stdin) := by
  unfold performMatch
  generalize r.candidates stdin = paths
  cases parsed : parseFilter r.filter with
  | error e =>
    rw [Filter.ofText_of_refused parsed]
    exact .filterRefused parsed
  | ok segments =>
    rw [Filter.ofText_of_parsed parsed]
    cases read : PropertyArgument.readAll r.properties with
    | error e =>
      simp only [PropertyArgument.bag, read, Except.map]
      exact .propertiesRefused parsed read
    | ok entries =>
      simp only [PropertyArgument.bag, read, Except.map]
      let f : Filter := ⟨r.filter, segments, parsed⟩
      have verdicts : ∀ path : String, path.toList.head? = some '/' →
          matchPath f.segments path (.ofPairs entries) =
            .ok (f.verdictOn (.ofPairs entries) path) :=
        fun path root => Filter.selectsPath_eq_ok_iff.mp (Filter.selectsPath_verdictOn root)
      cases hfind : paths.find? fun path => path.toList.head? ≠ some '/' with
      | none =>
        have roots : ∀ path ∈ paths, path.toList.head? = some '/' := by
          simpa [List.find?_eq_none] using hfind
        rw [verdicts_of_roots roots]
        simp only [← LogRecord.kept_append]
        exact .answered parsed read _ fun path hpath => verdicts path (roots path hpath)
      | some bad =>
        obtain ⟨refused, before, after, rfl, roots⟩ :=
          List.find?_eq_some_iff_append.mp hfind
        simp only [decide_eq_true_eq, Bool.not_eq_true', decide_eq_false_iff_not, not_not]
          at refused roots
        rw [verdicts_of_refused roots refused]
        simp only [← LogRecord.kept_append]
        exact .pathRefused parsed read rfl roots refused _
          fun path hpath => verdicts path (roots path hpath)

end PathFilter
