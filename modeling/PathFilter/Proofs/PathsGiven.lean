import PathFilter.Session
import PathFilter.Proofs.OnePerLine
import PathFilter.Proofs.Traversal

namespace PathFilter

namespace Options

variable {κ : Type}

/-- The words of a command line, options and the values that follow them, without its positional
arguments. -/
def withoutPositional (specs : List (OptionSpec κ)) : List String → List String
  | [] => []
  | word :: rest =>
    if word == "--" then []
    else if isOption word then
      match readOption specs word with
      | .ok ⟨_, some _⟩ =>
        match rest with
        | [] => [word]
        | value :: rest => word :: value :: withoutPositional specs rest
      | _ => word :: withoutPositional specs rest
    else withoutPositional specs rest

theorem read_withoutPositional (specs : List (OptionSpec κ)) (words : List String) :
    read specs true (withoutPositional specs words) =
      (read specs true words).map fun a => ⟨a.given, []⟩ := by
  induction words using read.induct specs true with
  | case1 => rfl
  | case2 word rest hdash =>
    rw [withoutPositional.eq_def]
    simp [read, hdash, Except.map]
  | case3 word rest hdash hoption e hread =>
    rw [withoutPositional.eq_def]
    simp [read, hdash, hoption, hread, Except.map]
  | case4 word rest hdash hoption given hread ih =>
    rw [withoutPositional.eq_def]
    simp only [read, hdash, hoption, hread, ih, Bool.false_eq_true, ↓reduceIte]
    cases read specs true rest <;> rfl
  | case5 word hdash hoption given key name hread =>
    rw [withoutPositional.eq_def]
    simp [read, hdash, hoption, hread, Except.map]
  | case6 word hdash hoption given key name hread value rest ih =>
    rw [withoutPositional.eq_def]
    simp only [read, hdash, hoption, hread, ih, Bool.false_eq_true, ↓reduceIte]
    cases read specs true rest <;> rfl
  | case7 word rest hdash hoption _ ih =>
    rw [withoutPositional.eq_def]
    simp only [read, hdash, hoption, ih, Bool.false_eq_true, ↓reduceIte]
    cases read specs true rest <;> rfl
  | case8 word rest hdash hoption hfalse => exact absurd rfl hfalse

theorem map_addGiven_eq_ok_iff {x : Except UsageFault (Arguments κ)}
    {found given : List (κ × String)} {positional : List String} :
    x.map (addGiven found) = .ok ⟨given, positional⟩ ↔
      ∃ later, x = .ok ⟨later, positional⟩ ∧ found ++ later = given := by
  rw [map_eq_ok_iff]
  constructor
  · rintro ⟨⟨later, _⟩, hx, hgiven⟩
    obtain ⟨rfl, rfl⟩ := Arguments.mk.inj hgiven
    exact ⟨later, hx, rfl⟩
  · rintro ⟨later, hx, rfl⟩
    exact ⟨⟨later, positional⟩, hx, rfl⟩

/-- What stands before a word that is left over does not hang on what follows the word. -/
theorem read_append_cons {specs : List (OptionSpec κ)} {word : String}
    (plain : isOption word = false) (hword : (word == "--") = false) {words : List String}
    {given : List (κ × String)}
    (h : read specs false (words ++ [word]) = .ok ⟨given, [word]⟩) (rest : List String) :
    read specs false (words ++ word :: rest) = .ok ⟨given, word :: rest⟩ := by
  induction words using read.induct specs false generalizing given with
  | case1 =>
    simp only [List.nil_append, read, hword, plain, Bool.false_eq_true, ↓reduceIte, Except.ok.injEq,
      Arguments.mk.injEq, and_true] at h ⊢
    exact h
  | case2 first words hdash =>
    simp only [List.cons_append, read, hdash, ↓reduceIte, Except.ok.injEq,
      Arguments.mk.injEq] at h ⊢
    obtain ⟨hgiven, hwords⟩ := h
    obtain rfl : words = [] := by simpa using hwords
    exact ⟨hgiven, rfl⟩
  | case3 first words hdash hoption e hread =>
    simp [read, hdash, hoption, hread] at h
  | case4 first words hdash hoption found hread ih =>
    simp only [List.cons_append, read, hdash, hoption, hread, Bool.false_eq_true, ↓reduceIte,
      map_addGiven_eq_ok_iff] at h ⊢
    obtain ⟨later, hlater, hgiven⟩ := h
    exact ⟨later, ih hlater, hgiven⟩
  | case5 first hdash hoption found key name hread =>
    simp [read, hdash, hoption, hread, Except.map, addGiven] at h
  | case6 first hdash hoption found key name hread value words ih =>
    simp only [List.cons_append, read, hdash, hoption, hread, Bool.false_eq_true, ↓reduceIte,
      map_addGiven_eq_ok_iff] at h ⊢
    obtain ⟨later, hlater, hgiven⟩ := h
    exact ⟨later, ih hlater, hgiven⟩
  | case7 first words hdash hoption htrue => cases htrue
  | case8 first words hdash hoption _ =>
    simp [read, hdash, hoption] at h

end Options

/-- The options before the name of a command are read without regard to what follows the name. -/
theorem GlobalOption.read_append_cons {s : Surroundings} {globals : List String}
    {name : CommandName} {settings : RunSettings}
    (h : read s (globals ++ [name.text]) = .ok (settings, [name.text])) (rest : List String) :
    read s (globals ++ name.text :: rest) = .ok (settings, name.text :: rest) := by
  have plain : Options.isOption name.text = false := by cases name <;> rfl
  have hname : (name.text == "--") = false := by cases name <;> rfl
  obtain ⟨⟨given, positional⟩, hread, h⟩ := bind_eq_ok_iff.mp h
  split at h
  next => contradiction
  next hhalt =>
    obtain ⟨format, hformat, h⟩ := bind_eq_ok_iff.mp h
    obtain ⟨rfl, rfl⟩ := Prod.mk.inj (Except.ok.inj h)
    have hread' := Options.read_append_cons plain hname (mapError_eq_ok_iff.mp hread) rest
    have hhalt' : halt? ⟨given, name.text :: rest⟩ = none := hhalt
    refine bind_eq_ok_iff.mpr ⟨_, mapError_eq_ok_iff.mpr hread', ?_⟩
    rw [hhalt']
    exact bind_eq_ok_iff.mpr ⟨format, hformat, rfl⟩

section

variable {s : Surroundings} {format : OutputFormat} {words : List String}
  {a : Arguments CommandOption}

/-- Without its positional arguments `match` is asked for the same, but with no paths. -/
theorem CommandOption.read_withoutPositional
    (accepted : Options.read (specs .matching) true words = .ok a) :
    (∃ halt, read s .matching format words = .error halt ∧
      read s .matching format (Options.withoutPositional (specs .matching) words) = .error halt) ∨
    ∃ chosen r, r.paths = a.positional ∧
      read s .matching format words = .ok (chosen, .matching r) ∧
      read s .matching format (Options.withoutPositional (specs .matching) words) =
        .ok (chosen, .matching { r with paths := [] }) := by
  have hbare := Options.read_withoutPositional (specs .matching) words
  rw [accepted] at hbare
  have hhas : Arguments.has ⟨a.given, []⟩ CommandOption.help = a.has .help := rfl
  have hlast : ∀ key : CommandOption, Arguments.last? ⟨a.given, []⟩ key = a.last? key :=
    fun _ => rfl
  simp only [read, accepted, hbare, Except.map, Except.mapError, bind, Except.bind, hhas, hlast]
  cases a.has .help with
  | true => exact .inl ⟨_, rfl, rfl⟩
  | false =>
    cases OutputFormat.readOption none (a.last? .output) with
    | error e => exact .inl ⟨_, rfl, rfl⟩
    | ok output =>
      simp only [request, hlast]
      cases a.last? .filter <|> s.valueOf? filterVariable with
      | none => exact .inl ⟨_, rfl, rfl⟩
      | some text => exact .inr ⟨_, _, rfl, rfl, rfl⟩

theorem CommandLine.read_match {globals : List String} {settings : RunSettings}
    (named : GlobalOption.read s (globals ++ ["match"]) = .ok (settings, ["match"]))
    (words : List String) :
    CommandLine.read s (globals ++ "match" :: words) =
      match CommandOption.read s .matching settings.format words with
      | .error halt => .error ⟨halt, settings.logFile⟩
      | .ok (format, request) => .ok ({ settings with format := format }, request) := by
  have hglobals : GlobalOption.read s (globals ++ "match" :: words) =
      .ok (settings, "match" :: words) :=
    @GlobalOption.read_append_cons s globals .matching settings named words
  have hname : CommandName.ofText? "match" = some .matching := rfl
  cases hread : CommandOption.read s .matching settings.format words with
  | error halt => simp only [CommandLine.read, hglobals, hname, hread]
  | ok chosen => simp only [CommandLine.read, hglobals, hname, hread]

end

/-- The paths of a command line and the same paths on the standard input are the same to `match`. -/
theorem performMatch_of_onePerLine {r : MatchRequest} {stdin : String} (given : r.paths ≠ [])
    (alone : ∀ path ∈ r.paths, StandsAlone path.toList)
    (lines : OnePerLine (r.paths.map String.toList) stdin.toList) (floor : LogLevel)
    (unread : String) :
    performMatch floor { r with paths := [] } stdin = performMatch floor r unread := by
  have hlines : MatchRequest.candidates { r with paths := [] } stdin = r.candidates unread := by
    simp [MatchRequest.candidates, MatchRequest.readsStdin, given,
      stdinPaths_of_onePerLine lines alone]
  simp only [performMatch, hlines]

/-- A run of `match` on the paths of its command line is the run without them that finds them on
the standard input. Its options and their values may stand anywhere, and whatever the filter and the
properties are, both have the same report, the same exit code and the same effect. -/
theorem Session.run_match_onePerLine {s : Surroundings} {globals words : List String}
    {settings : RunSettings} {a : Arguments CommandOption} {stdin : String}
    (named : GlobalOption.read s (globals ++ ["match"]) = .ok (settings, ["match"]))
    (accepted : Options.read (CommandOption.specs .matching) true words = .ok a)
    (given : a.positional ≠ []) (alone : ∀ path ∈ a.positional, StandsAlone path.toList)
    (lines : OnePerLine (a.positional.map String.toList) stdin.toList) :
    let bare := Options.withoutPositional (CommandOption.specs .matching) words
    Options.read (CommandOption.specs .matching) true bare = .ok ⟨a.given, []⟩ ∧
      (∀ (floor : LogLevel) (r : MatchRequest), r.paths = a.positional →
        performMatch floor { r with paths := [] } stdin = performMatch floor r s.stdin) ∧
      run { s with stdin := stdin } (globals ++ "match" :: bare) =
        run s (globals ++ "match" :: words) := by
  intro bare
  have hperform : ∀ (floor : LogLevel) (r : MatchRequest), r.paths = a.positional →
      performMatch floor { r with paths := [] } stdin = performMatch floor r s.stdin := by
    intro floor r hr
    rw [← hr] at given alone lines
    exact performMatch_of_onePerLine given alone lines floor s.stdin
  refine ⟨?_, hperform, ?_⟩
  · rw [Options.read_withoutPositional, accepted]
    rfl
  · have hstdin : CommandLine.read { s with stdin := stdin } (globals ++ "match" :: bare) =
        CommandLine.read s (globals ++ "match" :: bare) := rfl
    rw [run, run, hstdin, CommandLine.read_match named, CommandLine.read_match named]
    obtain ⟨halt, hwords, hbare⟩ | ⟨chosen, r, hr, hwords, hbare⟩ :=
      @CommandOption.read_withoutPositional s settings.format words a accepted
    · rw [hwords, hbare]
      rfl
    · rw [hwords, hbare]
      simp only [perform, hperform _ r hr]
      rfl

theorem Session.run_match_onePerLine_mixed :
    run (.bare "\t/a b \r\r\n\x0b\n/c")
        (["--json"] ++ "match" :: ["-f", "/*[k=v]", "-p", "k=v"]) =
      run (.bare "")
        (["--json"] ++ "match" :: ["/a b", "-f", "/*[k=v]", "-p", "k=v", "--", "/c"]) := by
  have blank : Padding ['\x0b'] := by decide
  have left : Padding ['\t'] := by decide
  have right : Padding [' '] := by decide
  have empty : Padding [] := by decide
  have slash : StandsAlone ['/', 'c'] := by constructor <;> simp <;> decide
  have spaced : StandsAlone ['/', 'a', ' ', 'b'] := by constructor <;> simp <;> decide
  have lines : OnePerLine [['/', 'a', ' ', 'b'], ['/', 'c']]
      "\t/a b \r\r\n\x0b\n/c".toList :=
    .line _ left right .carriageReturn
      (.blank empty .both (.blank blank .lineFeed (.last _ empty empty)))
  exact (@run_match_onePerLine (.bare "") ["--json"]
    ["/a b", "-f", "/*[k=v]", "-p", "k=v", "--", "/c"] ⟨.json, false, 0, none⟩
    ⟨[(.filter, "/*[k=v]"), (.property, "k=v")], ["/a b", "/c"]⟩ "\t/a b \r\r\n\x0b\n/c"
    rfl rfl (by simp) (by simp [spaced, slash]) lines).2.2

end PathFilter
