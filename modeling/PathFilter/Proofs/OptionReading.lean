import PathFilter.Proofs.PathsGiven

namespace PathFilter

namespace Arguments

variable {κ : Type} [DecidableEq κ] {a : Arguments κ} {key : κ}

theorem has_iff : a.has key = true ↔ key ∈ a.given.map Prod.fst := by
  simp [has, values]

theorem mem_keys_iff : key ∈ a.keys ↔ key ∈ a.given.map Prod.fst := List.mem_eraseDups

end Arguments

namespace Options

variable {κ : Type}

/-- A flag stands between words as an option of its own: it is not the value of the option before
it, and the options have not come to an end. -/
structure FlagBetween (specs : List (OptionSpec κ)) (interspersed : Bool) (flag : String) (key : κ)
    (before after : List String) (front back : Arguments κ) : Prop where
  reads_before : read specs interspersed before = .ok front
  reads_flag : read specs interspersed (before ++ [flag]) =
    .ok ⟨front.given ++ [(key, "")], front.positional⟩
  reads_after : read specs interspersed after = .ok back

variable {specs : List (OptionSpec κ)} {interspersed : Bool}

theorem map_addPositional_eq_ok_iff {x : Except UsageFault (Arguments κ)} {word : String}
    {given : List (κ × String)} {positional : List String} :
    x.map (addPositional word) = .ok ⟨given, positional⟩ ↔
      ∃ later, x = .ok ⟨given, later⟩ ∧ word :: later = positional := by
  rw [map_eq_ok_iff]
  constructor
  · rintro ⟨⟨_, later⟩, hx, hpositional⟩
    obtain ⟨rfl, rfl⟩ := Arguments.mk.inj hpositional
    exact ⟨later, hx, rfl⟩
  · rintro ⟨later, hx, rfl⟩
    exact ⟨⟨given, later⟩, hx, rfl⟩

/-- Where a flag may stand, what follows is read on its own. -/
theorem read_append {flag : String} {key : κ} {before : List String} {given : List (κ × String)}
    {positional : List String} (hbefore : read specs interspersed before = .ok ⟨given, positional⟩)
    (hflag : read specs interspersed (before ++ [flag]) =
      .ok ⟨given ++ [(key, "")], positional⟩) (rest : List String) :
    read specs interspersed (before ++ rest) =
      (read specs interspersed rest).map fun a =>
        ⟨given ++ a.given, positional ++ a.positional⟩ := by
  induction before using read.induct specs interspersed generalizing given positional with
  | case1 =>
    simp only [read, Except.ok.injEq, Arguments.mk.injEq] at hbefore
    obtain ⟨rfl, rfl⟩ := hbefore
    rw [List.nil_append]
    cases read specs interspersed rest <;> rfl
  | case2 word words hdash =>
    -- two dashes end the options
    simp [read, hdash] at hbefore hflag
  | case3 word words hdash hoption e hread =>
    simp [read, hdash, hoption, hread] at hbefore
  | case4 word words hdash hoption found hread ih =>
    simp only [List.cons_append, read, hdash, hoption, hread, Bool.false_eq_true, ↓reduceIte,
      map_addGiven_eq_ok_iff] at hbefore hflag ⊢
    obtain ⟨later, hlater, rfl⟩ := hbefore
    obtain ⟨later', hlater', happend⟩ := hflag
    rw [List.append_assoc, List.append_cancel_left_eq] at happend
    subst happend
    rw [ih hlater hlater']
    cases read specs interspersed rest <;> simp [Except.map, addGiven]
  | case5 word hdash hoption found key name hread =>
    simp [read, hdash, hoption, hread] at hbefore
  | case6 word hdash hoption found key name hread value words ih =>
    simp only [List.cons_append, read, hdash, hoption, hread, Bool.false_eq_true, ↓reduceIte,
      map_addGiven_eq_ok_iff] at hbefore hflag ⊢
    obtain ⟨later, hlater, rfl⟩ := hbefore
    obtain ⟨later', hlater', happend⟩ := hflag
    rw [List.append_assoc _ later, List.append_cancel_left_eq] at happend
    subst happend
    rw [ih hlater hlater']
    cases read specs interspersed rest <;> simp [Except.map, addGiven]
  | case7 word words hdash hoption hinterspersed ih =>
    subst hinterspersed
    simp only [List.cons_append, read, hdash, hoption, Bool.false_eq_true, ↓reduceIte,
      map_addPositional_eq_ok_iff] at hbefore hflag ⊢
    obtain ⟨later, hlater, rfl⟩ := hbefore
    obtain ⟨later', hlater', hcons⟩ := hflag
    obtain rfl := (List.cons.inj hcons).2
    rw [ih hlater hlater']
    cases read specs true rest <;> simp [Except.map, addPositional]
  | case8 word words hdash hoption hinterspersed =>
    -- the first argument ends the options here
    simp [read, hdash, hoption, hinterspersed] at hbefore hflag

section

variable {json output : κ} {before after : List String} {front back : Arguments κ}

theorem FlagBetween.read_json
    (between : FlagBetween specs interspersed "--json" json before after front back)
    (known : readOption specs "--json" = .ok ⟨[(json, "")], none⟩) :
    read specs interspersed (before ++ "--json" :: after) =
      .ok ⟨front.given ++ (json, "") :: back.given, front.positional ++ back.positional⟩ := by
  have hread : read specs interspersed ("--json" :: after) =
      .ok ⟨(json, "") :: back.given, back.positional⟩ := by
    simp [read, isOption, known, between.reads_after, Except.map, addGiven]
  rw [read_append between.reads_before between.reads_flag, hread]
  rfl

theorem FlagBetween.read_output
    (between : FlagBetween specs interspersed "--json" json before after front back) {name : String}
    (known : readOption specs "--output" = .ok ⟨[], some (output, name)⟩) (value : String) :
    read specs interspersed (before ++ "--output" :: value :: after) =
      .ok ⟨front.given ++ (output, value) :: back.given, front.positional ++ back.positional⟩ := by
  have hread : read specs interspersed ("--output" :: value :: after) =
      .ok ⟨(output, value) :: back.given, back.positional⟩ := by
    simp [read, isOption, known, between.reads_after, Except.map, addGiven]
  rw [read_append between.reads_before between.reads_flag, hread]
  rfl

end

end Options

theorem OutputFormat.readOption_eq_ok_iff {note : Option String} {value : Option String}
    {output : Option OutputFormat} :
    readOption note value = .ok output ↔ value = output.map OutputFormat.name := by
  cases value with
  | none => cases output <;> simp [readOption]
  | some text =>
    rw [readOption, map_eq_ok_iff]
    cases output with
    | none => simp
    | some format =>
      simp only [Option.some.injEq, exists_eq_right, Option.map_some]
      unfold read ofName?
      cases format <;> by_cases htable : text = "table" <;> by_cases hjson : text = "json" <;>
        simp_all [OutputFormat.name]

namespace GlobalOption

/-- In either order of the checks, both values are as they must be. -/
theorem checkValues_eq_ok_iff {s : Surroundings} {a : Arguments GlobalOption}
    {output : Option OutputFormat} : checkValues s a = .ok output ↔
      (a.last? .output).or (s.valueOf? outputVariable) = output.map OutputFormat.name ∧
        checkPath s (logPath s a) = .ok () := by
  rw [← @OutputFormat.readOption_eq_ok_iff (some outputVariable)]
  unfold checkValues
  rw [Option.orElse_eq_orElse, Option.orElse_eq_or]
  split
  next =>
    rw [bind_eq_ok_iff]
    exact ⟨fun ⟨_, hpath, hformat⟩ => ⟨hformat, hpath⟩,
      fun ⟨hformat, hpath⟩ => ⟨(), hpath, hformat⟩⟩
  next =>
    simp only [bind_eq_ok_iff, pure, Except.pure, Except.ok.injEq]
    constructor
    · rintro ⟨named, hnamed, _, hpath, rfl⟩
      exact ⟨hnamed, hpath⟩
    · rintro ⟨hnamed, hpath⟩
      exact ⟨output, hnamed, (), hpath, rfl⟩

/-- The settings that the options before a command's name ask for, once their values are read. -/
theorem read_eq_ok_iff {s : Surroundings} {arguments : List String} {settings : RunSettings}
    {rest : List String} : read s arguments = .ok (settings, rest) ↔
      ∃ a, Options.read specs false arguments = .ok a ∧ halt? a = none ∧
        ∃ output : Option OutputFormat,
          (a.last? .output).or (s.valueOf? outputVariable) = output.map OutputFormat.name ∧
          checkPath s (logPath s a) = .ok () ∧
          settings = {
            format := if a.has .json then .json else output.getD .table
            quiet := a.has .quiet
            verbosity := a.count .verbose
            logFile := logPath s a } ∧
          rest = a.positional := by
  simp only [read, bind_eq_ok_iff, mapError_eq_ok_iff]
  refine exists_congr fun a => and_congr_right fun _ => ?_
  cases halt? a with
  | some halt => simp
  | none =>
    simp only [bind_eq_ok_iff, mapError_eq_ok_iff, checkValues_eq_ok_iff, true_and, pure,
      Except.pure, Except.ok.injEq, Prod.mk.injEq, and_assoc]
    refine exists_congr fun output => and_congr_right fun _ => and_congr_right fun _ => ?_
    rw [eq_comm, @eq_comm _ a.positional]

theorem halt?_eq_none_iff {a : Arguments GlobalOption} :
    halt? a = none ↔ a.has .version = false ∧ a.has .help = false := by
  rw [halt?, List.findSome?_eq_none_iff, ← Bool.not_eq_true, ← Bool.not_eq_true, Arguments.has_iff,
    Arguments.has_iff, ← Arguments.mem_keys_iff, ← Arguments.mem_keys_iff]
  constructor
  · intro h
    exact ⟨fun hversion => Option.some_ne_none _ (h _ hversion),
      fun hhelp => Option.some_ne_none _ (h _ hhelp)⟩
  · rintro ⟨hversion, hhelp⟩ key hkey
    cases key <;> first | contradiction | rfl

end GlobalOption

/-- What the options give a command is the same but for the format. -/
structure Arguments.SameTask (a a' : Arguments CommandOption) : Prop where
  positional : a'.positional = a.positional
  values : ∀ key, key ≠ .json → key ≠ .output → a'.values key = a.values key

namespace CommandOption

theorem read_eq_ok_iff {s : Surroundings} {name : CommandName} {format chosen : OutputFormat}
    {words : List String} {asked : Request} : read s name format words = .ok (chosen, asked) ↔
      ∃ a, Options.read (specs name) true words = .ok a ∧ a.has .help = false ∧
        ∃ output : Option OutputFormat,
          a.last? .output = output.map OutputFormat.name ∧
          request s name a = .ok asked ∧ chosen = formatAfter a output format := by
  simp only [read, bind_eq_ok_iff, mapError_eq_ok_iff]
  refine exists_congr fun a => and_congr_right fun _ => ?_
  cases a.has .help with
  | true => simp
  | false =>
    simp only [Bool.false_eq_true, ↓reduceIte, bind_eq_ok_iff, mapError_eq_ok_iff,
      OutputFormat.readOption_eq_ok_iff, true_and, pure, Except.pure, Except.ok.injEq,
      Prod.mk.injEq]
    refine exists_congr fun output => and_congr_right fun _ => ?_
    constructor
    · rintro ⟨_, hrequest, rfl, rfl⟩
      exact ⟨hrequest, rfl⟩
    · rintro ⟨hrequest, rfl⟩
      exact ⟨asked, hrequest, rfl, rfl⟩

/-- What a command is asked for does not hang on the options for the format. -/
theorem request_eq_of_same {a a' : Arguments CommandOption} (same : a.SameTask a')
    (s : Surroundings) (name : CommandName) : request s name a' = request s name a := by
  have hfilter := same.values .filter (by decide) (by decide)
  have hproperty := same.values .property (by decide) (by decide)
  have honly := same.values .matchedOnly (by decide) (by decide)
  cases name <;> simp only [request, Arguments.last?, Arguments.has, same.positional, hfilter,
    hproperty, honly]

end CommandOption

theorem CommandName.ofText?_text (name : CommandName) : ofText? name.text = some name := by
  cases name <;> rfl

theorem CommandName.ofText?_eq_some_iff {word : String} {name : CommandName} :
    ofText? word = some name ↔ name.text = word := by
  constructor
  · exact fun h => by simpa using List.find?_some h
  · rintro rfl
    exact ofText?_text name

theorem CommandName.text_injective {name name' : CommandName} (h : name.text = name'.text) :
    name = name' := by
  rw [← Option.some.injEq, ← ofText?_text, h, ofText?_text]

namespace CommandLine

/-- A command line that runs a command: its name, with the options before and behind it. -/
theorem read_eq_ok_iff {s : Surroundings} {arguments : List String} {settings : RunSettings}
    {request : Request} : read s arguments = .ok (settings, request) ↔
      ∃ (general : RunSettings) (name : CommandName) (words : List String) (format : OutputFormat),
        GlobalOption.read s arguments = .ok (general, name.text :: words) ∧
        CommandOption.read s name general.format words = .ok (format, request) ∧
        settings = { general with format := format } := by
  constructor
  · intro h
    unfold read at h
    split at h
    next => contradiction
    next => contradiction
    next general word words hgeneral =>
      split at h
      next => contradiction
      next name hname =>
        split at h
        next => contradiction
        next format request hcommand =>
          obtain ⟨rfl, rfl⟩ := Prod.mk.inj (Except.ok.inj h)
          obtain rfl := CommandName.ofText?_eq_some_iff.mp hname
          exact ⟨general, name, words, format, hgeneral, hcommand, rfl⟩
  · rintro ⟨general, name, words, format, hgeneral, hcommand, rfl⟩
    simp only [read, hgeneral, CommandName.ofText?_text, hcommand]

theorem read_append_cons_eq_ok_iff {s : Surroundings} {globals words : List String}
    {name : CommandName} {general settings : RunSettings} {request : Request}
    (named : GlobalOption.read s (globals ++ [name.text]) = .ok (general, [name.text])) :
    read s (globals ++ name.text :: words) = .ok (settings, request) ↔ ∃ format,
      CommandOption.read s name general.format words = .ok (format, request) ∧
        settings = { general with format := format } := by
  have hgeneral := GlobalOption.read_append_cons named words
  rw [read_eq_ok_iff]
  constructor
  · rintro ⟨general', name', words', format, hgeneral', hcommand, rfl⟩
    obtain ⟨rfl, hwords⟩ := Prod.mk.inj (Except.ok.inj (hgeneral.symm.trans hgeneral'))
    obtain ⟨hname, rfl⟩ := List.cons.inj hwords
    obtain rfl := CommandName.text_injective hname
    exact ⟨format, hcommand, rfl⟩
  · rintro ⟨format, hcommand, rfl⟩
    exact ⟨general, name, words, format, hgeneral, hcommand, rfl⟩

end CommandLine

end PathFilter
