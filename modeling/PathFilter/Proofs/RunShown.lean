import PathFilter.Proofs.CommandReports

namespace PathFilter

namespace RunSettings

variable (settings : RunSettings) (s : Surroundings)

/-- The log, if there is to be one, can be opened. -/
def OpensLog : Prop :=
  ∀ path type message, settings.logFile = some path →
    s.logTarget path ≠ .unavailable type message

/-- The log, if there is to be one, is not written to the output. -/
def SparesOutput : Prop := ∀ path, settings.logFile = some path → s.logTarget path ≠ .stdout

/-- The log, if there is to be one, is written to a file of its own. -/
def OwnLog : Prop := ∀ path, settings.logFile = some path → s.logTarget path = .file

end RunSettings

section

variable {settings : RunSettings} {s : Surroundings}

theorem RunSettings.opensLog_of_noLog (h : settings.logFile = none) : settings.OpensLog s := by
  intro path type message hpath
  rw [h] at hpath
  contradiction

theorem RunSettings.OwnLog.opensLog (h : settings.OwnLog s) : settings.OpensLog s := by
  intro path type message hpath
  rw [h path hpath]
  exact nofun

namespace Session

theorem opening_of_opensLog (opens : settings.OpensLog s) (next : Session) :
    opening s settings.logFile next = next := by
  unfold opening
  split
  next type message h =>
    obtain ⟨path, hpath, htarget⟩ := Option.map_eq_some_iff.mp h
    exact absurd htarget (opens path type message hpath)
  next => rfl

/-- A run whose log file cannot be opened ends before its command, with nothing on either stream. -/
theorem run_of_unavailable {arguments : List String} {request : Request}
    (read : CommandLine.read s arguments = .ok (settings, request)) {path type message : String}
    (log : settings.logFile = some path) (target : s.logTarget path = .unavailable type message) :
    run s arguments = ⟨.crashed type message, ⟨"", ""⟩, none⟩ := by
  simp only [run, read, opening, log, Option.map_some, target]

end Session

end

/-- A report on a screen: on its line, or as tables that are missing just when the command has
failed. -/
structure Report.ShownOn (r : Report) (format : OutputFormat) (line : String) (screen : Screen) :
    Prop where
  json : format = .json → screen.stdout = line ++ "\n"
  table : format = .table → (screen.stdout = "" ↔ r.ok = false)

theorem Report.display_after {t : Terminal} {settings : DisplaySettings}
    (hformat : settings.format = .table) (duration : Int) (r : Report) :
    (r.after duration).display t settings = r.display t settings := by
  simp only [display, hformat]
  rfl

/-- A run ends with the exit code of a command, and shows a screen behind what the log writes to the
same streams. -/
structure Session.Ends (session : Session) (s : Surroundings) (settings : RunSettings)
    (p : Performance) (screen : Screen) : Prop where
  ending : session.ending = .exited p.exitCode
  stdout : ∃ logged, session.screen.stdout = logged ++ screen.stdout ∧
    (settings.SparesOutput s → logged = "")
  stderr : ∃ recorded, session.screen.stderr = recorded ++ screen.stderr

namespace Session

variable {s : Surroundings} {settings : RunSettings}

theorem ends_leave (p : Performance) (screen : Screen) :
    (leave s settings p.records (.exited p.exitCode) screen).Ends s settings p screen := by
  refine ⟨rfl, ⟨_, rfl, fun spares => if_neg fun h => ?_⟩, ⟨_, rfl⟩⟩
  obtain ⟨path, hpath, htarget⟩ := Option.map_eq_some_iff.mp h
  exact spares path hpath htarget

theorem exists_shown (takes : s.terminal.TakesAll) (floor : LogLevel) (request : Request)
    (duration : Int) : ∃ screen,
      shown s settings ((perform s floor request).report.after duration) = .ok screen := by
  have hdisplay : ∃ screen, ((perform s floor request).report.after duration).display s.terminal
      settings.display = .ok screen := by
    cases hformat : settings.display.format with
    | json => exact ⟨_, Report.display_of_json takes hformat _⟩
    | table =>
      rw [Report.display_after hformat]
      exact exists_display_perform takes floor request settings.display
  obtain ⟨screen, hscreen⟩ := hdisplay
  exact ⟨_, by rw [shown, hscreen]; rfl⟩

theorem shownOn_of_shown (takes : s.terminal.TakesAll) {r : Report} {duration : Int}
    {screen : Screen} (h : shown s settings (r.after duration) = .ok screen) :
    r.ShownOn settings.format (Json.line (r.after duration).toValue) screen := by
  obtain ⟨displayed, hdisplayed, rfl⟩ := map_eq_ok_iff.mp h
  refine ⟨fun hformat => ?_, fun hformat => ?_⟩
  · rw [Report.display_of_json takes hformat] at hdisplayed
    rw [← Except.ok.inj hdisplayed]
  · rw [Report.display_after hformat] at hdisplayed
    have hstdout := Report.stdout_of_table hformat hdisplayed
    exact hstdout

/-- A run shows what its command has done, if the output takes what is written and the log can be
opened. -/
theorem exists_ends_of_read (takes : s.terminal.TakesAll) (opens : settings.OpensLog s)
    {arguments : List String} {request : Request}
    (read : CommandLine.read s arguments = .ok (settings, request)) :
    let p := perform s settings.logger.level request
    ∃ screen, shown s settings (p.report.after (s.duration 0)) = .ok screen ∧
      p.report.ShownOn settings.format (Json.line (p.report.after (s.duration 0)).toValue) screen ∧
      run s arguments = leave s settings p.records (.exited p.exitCode) screen ∧
      (run s arguments).Ends s settings p screen := by
  intro p
  obtain ⟨screen, hscreen⟩ := exists_shown takes settings.logger.level request (s.duration 0)
  have hrun : run s arguments = leave s settings p.records (.exited p.exitCode) screen := by
    rw [run, read]
    simp only [opening_of_opensLog opens, present, conclude]
    rw [hscreen]
  exact ⟨screen, hscreen, shownOn_of_shown takes hscreen, hrun, hrun ▸ ends_leave p screen⟩

/-- A failure whose line the output does not take ends the run with an error that nothing
catches. -/
theorem run_of_refused (opens : settings.OpensLog s) {arguments : List String} {request : Request}
    (read : CommandLine.read s arguments = .ok (settings, request))
    (hformat : settings.format = .json) {r : Report}
    (reported : (perform s settings.logger.level request).report = r) (failed : r.ok = false)
    {reason : String} (refused : s.terminal.refusal
      (Json.line (r.after (s.duration 0)).toValue ++ "\n") = some reason) :
    (run s arguments).ending = .crashed "UnicodeEncodeError" reason := by
  have hshown : shown s settings (r.after (s.duration 0)) = .error (.unencodable reason) := by
    have hdisplay : settings.display.format = .json := hformat
    simp only [shown, Report.display, hdisplay, refused]
    rfl
  rw [run, read]
  simp only [opening_of_opensLog opens, present, conclude, reported]
  rw [hshown, failed]
  rfl

end Session

end PathFilter
