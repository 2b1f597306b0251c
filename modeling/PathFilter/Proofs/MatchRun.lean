import PathFilter.Proofs.OnePerLine
import PathFilter.Proofs.RunShown

namespace PathFilter

/-- The paths that `match` is asked about: those it is given, or else one for each line of the
standard input that is not blank. -/
inductive MatchRequest.Candidates (r : MatchRequest) (stdin : String) : List String → Prop
  | given (h : r.paths ≠ []) : Candidates r stdin r.paths
  | lines (h : r.paths = []) {paths : List String}
      (alone : ∀ path ∈ paths, StandsAlone path.toList)
      (each : OnePerLine (paths.map String.toList) stdin.toList) : Candidates r stdin paths

theorem MatchRequest.candidates_iff {r : MatchRequest} {stdin : String} {paths : List String} :
    r.Candidates stdin paths ↔ r.candidates stdin = paths := by
  constructor
  · intro h
    cases h with
    | given given => simp [candidates, readsStdin, given]
    | lines none alone each =>
      simp [candidates, readsStdin, none, stdinPaths_of_onePerLine each alone]
  · rintro rfl
    by_cases h : r.paths = []
    · obtain ⟨each, alone⟩ := onePerLine_strippedLines stdin.toList
      have hpaths : r.candidates stdin = (strippedLines stdin.toList).map String.ofList := by
        simp [candidates, readsStdin, h, stdinPaths]
      rw [hpaths]
      refine .lines h (List.forall_mem_map.mpr fun word hword => ?_) ?_
      · simpa using alone word hword
      · simpa [Function.comp_def] using each
    · have hpaths : r.candidates stdin = r.paths := by simp [candidates, readsStdin, h]
      rw [hpaths]
      exact .given h

/-- A report of `match` as tables and messages: a table of the verdicts that it lists, or else what
has failed before all else. -/
structure Report.Tells (r : Report) (t : Terminal) (screen : Screen) : Prop where
  verdicts : ∀ listed : List (String × Bool),
    r.data.field? "results" = some (.list (listed.map fun entry =>
      .fields [("path", .text entry.1), ("matched", .bool entry.2)])) →
    screen.stdout = Display.printed (Display.verdictGrid t listed)
  failure : ∀ e, r.error = some e → ∃ more,
    screen.stderr =
      Display.printed (Display.textLines t (Display.title e.type ++ ": " ++ e.message)) ++ more

section

variable {t : Terminal} {settings : DisplaySettings} {r : Report} {screen : Screen}

theorem Report.stdout_of_verdicts (hformat : settings.format = .table)
    (command : r.command = "match") (ok : r.ok = true) (h : r.display t settings = .ok screen)
    {listed : List (String × Bool)} (results : r.data.field? "results" =
      some (.list (listed.map MatchSummary.verdictValue))) :
    screen.stdout = Display.printed (Display.verdictGrid t listed) := by
  have hresult : Display.resultLines t r = .ok (Display.verdictGrid t listed) := by
    rw [← Display.verdictTable_eq results]
    simp [Display.resultLines, command]
  simp only [display, hformat, ok, hresult, ↓reduceIte, bind_eq_ok_iff] at h
  obtain ⟨result, hlines, h⟩ := h
  obtain rfl := Except.ok.inj hlines
  split at h
  next => contradiction
  next =>
    obtain ⟨summary, -, h⟩ := bind_eq_ok_iff.mp h
    rw [← Except.ok.inj h]

theorem Report.exists_stderr_of_error (hformat : settings.format = .table)
    (plain : '[' ∉ r.command.toList) (ok : r.ok = false) {e : ErrorInfo} (error : r.error = some e)
    (h : r.display t settings = .ok screen) : ∃ more,
      screen.stderr =
        Display.printed (Display.textLines t (Display.title e.type ++ ": " ++ e.message)) ++
          more := by
  obtain ⟨more, hlines⟩ := @Display.exists_errorLines t r.command plain settings e
  simp only [display, hformat, ok, error, hlines] at h
  refine ⟨Display.printed more, ?_⟩
  rw [← Display.printed_append, ← Except.ok.inj h]

/-- Messages that come later leave the first one where it is. -/
theorem Report.Tells.before (h : r.Tells t screen) (more : String) :
    r.Tells t ⟨screen.stdout, screen.stderr ++ more⟩ := by
  refine ⟨h.verdicts, fun e he => ?_⟩
  obtain ⟨first, hfirst⟩ := h.failure e he
  exact ⟨first ++ more, by rw [hfirst, String.append_assoc]⟩

theorem Report.tells_success (hformat : settings.format = .table) (m : MatchSummary)
    (warnings : List String) (filter : Option String)
    (h : (success "match" m.toValue warnings filter).display t settings = .ok screen) :
    (success "match" m.toValue warnings filter).Tells t screen :=
  ⟨fun _ => stdout_of_verdicts hformat rfl rfl h, nofun⟩

theorem Report.tells_failure (hformat : settings.format = .table) (warnings : List String)
    (d : Diagnosis) (h : (failure "match" warnings d).display t settings = .ok screen) :
    (failure "match" warnings d).Tells t screen := by
  have plain : '[' ∉ "match".toList := by decide
  exact ⟨nofun, fun _ he => exists_stderr_of_error hformat plain rfl he h⟩

theorem MatchCourse.tells {floor : LogLevel} {request : MatchRequest} {paths : List String}
    {p : Performance} (course : MatchCourse floor request paths p)
    (hformat : settings.format = .table) (h : p.report.display t settings = .ok screen) :
    p.report.Tells t screen := by
  cases course with
  | answered => exact Report.tells_success hformat _ _ _ h
  | _ => exact Report.tells_failure hformat _ _ h

end

theorem report_of_badProperties {r : MatchRequest} {f : Filter} {e : Failure}
    (accepted : Filter.ofText r.filter = .ok f)
    (refused : PropertyArgument.readAll r.properties = .error e) (s : Surroundings)
    (floor : LogLevel) :
    (perform s floor (.matching r)).report = .failure "match" [] e.diagnosis := by
  simp only [perform, performMatch, accepted, PropertyArgument.bag, refused, Except.map]
  rfl

/-- Where nothing is refused, the verdicts decide the exit code. -/
theorem MatchOutcome.exitCode_of_verdicts {r : MatchRequest} {paths : List String}
    {p : Performance} (h : MatchOutcome r paths p) {segments : List Expr}
    (parsed : parseFilter r.filter = .ok segments) (bare : r.properties = [])
    {verdict : String → Bool}
    (verdicts : ∀ path ∈ paths, matchPath segments path (.ofPairs []) = .ok (verdict path)) :
    p.exitCode = if 0 < paths.countP verdict then 0 else 1 := by
  cases h with
  | malformedFilter e refused => rw [parsed] at refused; contradiction
  | invalidFilter e refused => rw [parsed] at refused; contradiction
  | badProperty _ _ before bad after arguments => simp [bare] at arguments
  | badPath segments' parsed' entries assigned before bad after candidates good refused =>
    have hbad := verdicts bad (by simp [candidates])
    rw [matchPath_of_not_root refused] at hbad
    contradiction
  | answered segments' parsed' entries assigned verdict' verdicts' answers =>
    obtain rfl := Except.ok.inj (parsed.symm.trans parsed')
    rw [bare] at assigned
    cases assigned
    have same : ∀ path ∈ paths, verdict' path = true ↔ verdict path = true := by
      intro path hpath
      rw [Except.ok.inj ((verdicts' path hpath).symm.trans (verdicts path hpath))]
    rw [answers.exitCode, List.countP_congr same]

namespace Session

theorem tells_of_shown {s : Surroundings} {settings : RunSettings} {r : MatchRequest}
    {paths : List String} {p : Performance} {floor : LogLevel} {duration : Int} {screen : Screen}
    (course : MatchCourse floor r paths p) (hformat : settings.format = .table)
    (h : shown s settings (p.report.after duration) = .ok screen) :
    p.report.Tells s.terminal screen := by
  obtain ⟨displayed, hdisplayed, rfl⟩ := map_eq_ok_iff.mp h
  rw [Report.display_after hformat] at hdisplayed
  exact (course.tells hformat hdisplayed).before _

/-- A command line that asks for `match` performs it on its candidates, shows what it reports and
exits with its code, whatever the display, if the log can be opened and the output takes what is
written. -/
theorem run_match {s : Surroundings} {arguments : List String} {settings : RunSettings}
    {r : MatchRequest} (takes : s.terminal.TakesAll) (opens : settings.OpensLog s)
    (read : CommandLine.read s arguments = .ok (settings, .matching r)) :
    ∃ (paths : List String) (p : Performance) (line : Int → String) (screen : Screen),
      r.Candidates s.stdin paths ∧ MatchOutcome r paths p ∧ p.report.Written line ∧
      p.report.ShownOn settings.format (line (s.duration 0)) screen ∧
      (settings.format = .table → p.report.Tells s.terminal screen) ∧
      (run s arguments).Ends s settings p screen := by
  have course := matchCourse_performMatch settings.logger.level r s.stdin
  have ends := exists_ends_of_read takes opens read
  rw [perform] at ends
  generalize performMatch settings.logger.level r s.stdin = p at course ends
  obtain ⟨screen, hscreen, hshown, -, hends⟩ := ends
  have htells := fun hformat => tells_of_shown course hformat hscreen
  exact ⟨r.candidates s.stdin, p, _, screen, MatchRequest.candidates_iff.mpr rfl, course.outcome,
    course.isData.written, hshown, htells, hends⟩

theorem run_match_stdin :
    let s : Surroundings := .bare "/a/b\n \n/c\nd\n"
    let arguments := ["--json", "--log-file", "run.log", "match", "-f", "/a/*[k=v]", "-p", "k=v=w",
      "--matched-only"]
    let settings : RunSettings := ⟨.json, false, 0, some "run.log"⟩
    let r : MatchRequest := ⟨"/a/*[k=v]", [], ["k=v=w"], true⟩
    s.terminal.TakesAll ∧ settings.OpensLog s ∧
      CommandLine.read s arguments = .ok (settings, .matching r) ∧
      ∃ (paths : List String) (p : Performance) (line : Int → String) (screen : Screen),
        r.Candidates s.stdin paths ∧ MatchOutcome r paths p ∧ p.report.Written line ∧
        p.report.ShownOn settings.format (line (s.duration 0)) screen ∧
        (settings.format = .table → p.report.Tells s.terminal screen) ∧
        (run s arguments).Ends s settings p screen := by
  intro s arguments settings r
  have takes : s.terminal.TakesAll := fun _ => rfl
  have own : settings.OwnLog s := fun _ _ => rfl
  have opens : settings.OpensLog s := own.opensLog
  have read : CommandLine.read s arguments = .ok (settings, .matching r) := rfl
  exact ⟨takes, opens, read, run_match takes opens read⟩

/-- A run that does not get to its command, or whose output does not take the report, ends in other
ways: with a help page, by a log file that cannot be opened, or by a text that cannot be written. -/
theorem run_match_stopped :
    let s : Surroundings := .bare ""
    let closed : Surroundings :=
      { s with logTarget := fun _ => .unavailable "FileExistsError" "File exists: '/dev/null'" }
    let ascii : Surroundings :=
      { s with
        terminal := { s.terminal with
          refusal := fun text =>
            if text.toList.all fun c => c.toNat < 0x80 then none
            else some "ordinal not in range(128)" } }
    let r : MatchRequest := ⟨"/a", ["/b"], [], false⟩
    let logged := ["--log-file", "/dev/null/log", "match", "-f", "/a", "/b"]
    let accented := ["--json", "match", "-f", "/a", "/b", "-p", "é"]
    ((∀ p, MatchOutcome r ["/b"] p → p.exitCode = 1) ∧
      (run s ["match", "-f", "/a", "--help", "/b"]).ending = .exited 0) ∧
    (CommandLine.read closed logged =
        .ok (⟨.table, false, 0, some "/dev/null/log"⟩, .matching r) ∧
      (run closed logged).ending = .crashed "FileExistsError" "File exists: '/dev/null'") ∧
    (CommandLine.read ascii accented =
        .ok (⟨.json, false, 0, none⟩, .matching { r with properties := ["é"] }) ∧
      (run ascii accented).ending = .crashed "UnicodeEncodeError" "ordinal not in range(128)") := by
  intro s closed ascii r logged accented
  have parsed : parseFilter "/a" = .ok [.value ⟨['a']⟩] := rfl
  have unmatched (p : Performance) (h : MatchOutcome r ["/b"] p) : p.exitCode = 1 :=
    @MatchOutcome.exitCode_of_verdicts r ["/b"] p h _ parsed rfl (fun _ => false) (by decide)
  have readLogged : CommandLine.read closed logged =
      .ok (⟨.table, false, 0, some "/dev/null/log"⟩, .matching r) := rfl
  have readAccented : CommandLine.read ascii accented =
      .ok (⟨.json, false, 0, none⟩, .matching { r with properties := ["é"] }) := rfl
  let failure : Report := .failure "match" [] (Failure.propertyArgument "é").diagnosis
  have hreport : (perform ascii .warning (.matching { r with properties := ["é"] })).report =
      failure :=
    report_of_badProperties (Filter.ofText_of_parsed parsed) rfl ascii .warning
  have hmem : 'é' ∈ (Json.line (failure.after (ascii.duration 0)).toValue ++ "\n").toList := by
    have hproperty : 'é' ∈ (Json.line (.text "é")).toList := by decide
    have herror : failure.error = some ⟨"usage_error", (Failure.propertyArgument "é").message, none,
      some (.fields [("property", .text "é")])⟩ := rfl
    simp only [Report.toValue, Report.after, herror, Option.map_some, Option.getD_some,
      ErrorInfo.toValue, String.toList_append, Json.toList_line_fields, List.map_cons,
      List.map_nil, Json.joined_cons_cons, Json.joined_singleton, Json.toList_lineEntry,
      List.mem_append, List.mem_cons, hproperty, or_true, true_or]
  have refused : ascii.terminal.refusal
      (Json.line (failure.after (ascii.duration 0)).toValue ++ "\n") =
        some "ordinal not in range(128)" := by
    simp only [ascii]
    refine if_neg fun hall => ?_
    have hlow := List.all_eq_true.mp hall 'é' hmem
    exact absurd hlow (by decide)
  have opens : RunSettings.OpensLog ⟨.json, false, 0, none⟩ ascii :=
    RunSettings.opensLog_of_noLog rfl
  have crashed : (run ascii accented).ending =
      .crashed "UnicodeEncodeError" "ordinal not in range(128)" :=
    run_of_refused opens readAccented rfl hreport rfl refused
  exact ⟨⟨unmatched, rfl⟩,
    ⟨readLogged, congrArg Session.ending (run_of_unavailable readLogged rfl rfl)⟩,
    readAccented, crashed⟩

end Session

end PathFilter
