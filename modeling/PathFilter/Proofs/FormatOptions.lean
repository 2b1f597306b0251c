import PathFilter.Proofs.OptionReading

namespace PathFilter

/-- What an option says of the format. -/
inductive FormatOption where
  | json
  | output (value : String)
deriving DecidableEq, Repr

namespace FormatOption

def value? : FormatOption → Option String
  | .json => none
  | .output value => some value

/-- The value of the last `--output` of a row. -/
def lastOutput? (row : List FormatOption) : Option String := (row.filterMap value?).getLast?

theorem lastOutput?_append (front back : List FormatOption) :
    lastOutput? (front ++ back) = (lastOutput? back).or (lastOutput? front) := by
  rw [lastOutput?, List.filterMap_append, List.getLast?_append]
  rfl

theorem lastOutput?_json (row : List FormatOption) : lastOutput? (.json :: row) = lastOutput? row :=
  rfl

theorem lastOutput?_output (value : String) (row : List FormatOption) :
    lastOutput? (.output value :: row) = (lastOutput? row).or (some value) :=
  lastOutput?_append [.output value] row

/-- The format that a command's own options make of the format that was asked for before its name.
Of the two ways to name a format the one that is given first yields to the other. -/
def chosen (named : Option OutputFormat) (format : OutputFormat) : List FormatOption → OutputFormat
  | [] => format
  | .json :: row => if lastOutput? row = none then .json else named.getD .json
  | .output _ :: row => if .json ∈ row then .json else named.getD format

variable {κ : Type} [DecidableEq κ]

def ofGiven? (json output : κ) (entry : κ × String) : Option FormatOption :=
  if entry.1 = json then some .json
  else if entry.1 = output then some (.output entry.2)
  else none

/-- The options for the format, in the order in which they are given. -/
def row (json output : κ) (given : List (κ × String)) : List FormatOption :=
  given.filterMap (ofGiven? json output)

variable {json output : κ} {given : List (κ × String)}

theorem row_append (front back : List (κ × String)) :
    row json output (front ++ back) = row json output front ++ row json output back :=
  List.filterMap_append

theorem json_mem_row_iff : .json ∈ row json output given ↔ json ∈ given.map Prod.fst := by
  simp only [row, List.mem_filterMap, List.mem_map]
  constructor
  · rintro ⟨entry, hentry, h⟩
    refine ⟨entry, hentry, ?_⟩
    unfold ofGiven? at h
    split at h
    next hkey => exact hkey
    next => split at h <;> simp at h
  · rintro ⟨entry, hentry, rfl⟩
    exact ⟨entry, hentry, by simp [ofGiven?]⟩

theorem row_filter {key : κ} (hjson : key ≠ json) (houtput : key ≠ output) :
    row json output (given.filter fun entry => !(entry.1 == key)) = row json output given := by
  rw [row, row, List.filterMap_filter]
  congr 1
  funext entry
  by_cases h : entry.1 = key <;> simp [ofGiven?, h, hjson, houtput]

theorem last?_output (distinct : output ≠ json) (a : Arguments κ) :
    a.last? output = lastOutput? (row json output a.given) := by
  obtain ⟨given, positional⟩ := a
  have hvalues : (given.filter fun entry => entry.1 == output).map Prod.snd =
      (row json output given).filterMap value? := by
    rw [row, List.filterMap_filterMap, ← List.filterMap_eq_map, List.filterMap_filter]
    congr 1
    funext entry
    by_cases houtput : entry.1 = output
    · simp [ofGiven?, houtput, distinct, value?]
    · by_cases hjson : entry.1 = json <;> simp_all [ofGiven?, value?]
  simp only [Arguments.last?, Arguments.values, lastOutput?, hvalues]

theorem lastOutput?_row_eq_none_iff (distinct : output ≠ json) :
    lastOutput? (row json output given) = none ↔ output ∉ given.map Prod.fst := by
  rw [← last?_output distinct ⟨given, []⟩, ← @Arguments.has_iff _ _ ⟨given, []⟩]
  simp [Arguments.last?, Arguments.has]

end FormatOption

namespace CommandOption

/-- What becomes of the format by one option. -/
def heed (named : Option OutputFormat) (format : OutputFormat) : CommandOption → OutputFormat
  | .json => .json
  | .output => named.getD format
  | _ => format

variable {named : Option OutputFormat} {keys : List CommandOption}

theorem foldl_heed_of_no_json (h : .json ∉ keys) (format : OutputFormat) :
    keys.foldl (heed named) format = if .output ∈ keys then named.getD format else format := by
  induction keys generalizing format with
  | nil => rfl
  | cons key keys ih =>
    obtain ⟨hkey, hkeys⟩ := not_or.mp (mt List.mem_cons.mpr h)
    rw [List.foldl_cons, ih hkeys]
    cases key with
    | json => contradiction
    | output => cases named <;> simp [heed]
    | _ => simp [heed]

theorem foldl_heed_of_no_output (h : .output ∉ keys) (format : OutputFormat) :
    keys.foldl (heed named) format = if .json ∈ keys then .json else format := by
  induction keys generalizing format with
  | nil => rfl
  | cons key keys ih =>
    obtain ⟨hkey, hkeys⟩ := not_or.mp (mt List.mem_cons.mpr h)
    rw [List.foldl_cons, ih hkeys]
    cases key with
    | json => simp [heed]
    | output => contradiction
    | _ => simp [heed]

theorem foldl_keys_heed (given : List (CommandOption × String)) (positional : List String)
    (format : OutputFormat) :
    (Arguments.mk given positional).keys.foldl (heed named) format =
      FormatOption.chosen named format (FormatOption.row .json .output given) := by
  induction hlength : given.length using Nat.strong_induction_on generalizing given with
  | _ length ih =>
    cases given with
    | nil => rfl
    | cons entry given =>
      obtain ⟨key, value⟩ := entry
      -- the key does not come up again
      let rest := given.filter fun entry => !(entry.1 == key)
      have hkeys : (Arguments.mk ((key, value) :: given) positional).keys =
          key :: (Arguments.mk rest positional).keys := by
        rw [Arguments.keys, List.map_cons, List.eraseDups_cons, List.filter_map]
        rfl
      have hmem : ∀ other, other ∈ (Arguments.mk rest positional).keys ↔
          other ≠ key ∧ other ∈ given.map Prod.fst := by
        simp [Arguments.mem_keys_iff, rest, and_comm]
      rw [hkeys, List.foldl_cons]
      by_cases hjson : key = .json
      · subst hjson
        have hrow : FormatOption.row .json .output ((.json, value) :: given) =
            .json :: FormatOption.row .json .output given := rfl
        rw [foldl_heed_of_no_json (by simp [hmem]), hrow, FormatOption.chosen]
        simp only [hmem, heed, FormatOption.lastOutput?_row_eq_none_iff
          (by decide : CommandOption.output ≠ .json)]
        by_cases hmore : CommandOption.output ∈ given.map Prod.fst <;> simp [hmore]
      · by_cases houtput : key = .output
        · subst houtput
          have hrow : FormatOption.row .json .output ((.output, value) :: given) =
              .output value :: FormatOption.row .json .output given := rfl
          rw [foldl_heed_of_no_output (by simp [hmem]), hrow, FormatOption.chosen]
          simp only [hmem, heed, FormatOption.json_mem_row_iff]
          by_cases hmore : CommandOption.json ∈ given.map Prod.fst <;> simp [hmore]
        · have hrow : FormatOption.row .json .output ((key, value) :: given) =
              FormatOption.row .json .output rest := by
            rw [FormatOption.row_filter hjson houtput]
            simp [FormatOption.row, FormatOption.ofGiven?, hjson, houtput]
          have hheed : heed named format key = format := by
            cases key <;> first | contradiction | rfl
          rw [hheed, hrow]
          exact ih rest.length (hlength ▸ Nat.lt_succ_of_le (List.length_filter_le _ _)) rest rfl

theorem formatAfter_eq (a : Arguments CommandOption) (format : OutputFormat) :
    formatAfter a named format =
      FormatOption.chosen named format (FormatOption.row .json .output a.given) :=
  foldl_keys_heed a.given a.positional format

end CommandOption

namespace FormatOption

variable {front back : List FormatOption} {named named' : Option OutputFormat}
  {format : OutputFormat}

/-- A `--json` behind and before other options for the format does not do what `--output json` would
do in its place. Examples are the first and the second one of `--json --output table --json`, and
that of `--output json --json --output table`. -/
def Overruled (front back : List FormatOption) : Prop :=
  match front with
  | [] => .json ∈ back ∧ lastOutput? back = some "table"
  | .json :: front => lastOutput? back = none ∧ lastOutput? front = some "table"
  | .output _ :: front => .json ∉ front ++ back ∧ lastOutput? back = some "table"

theorem name_eq_table_iff : format.name = "table" ↔ format = .table := by
  cases format <;> simp [OutputFormat.name]

theorem ne_json_iff : ¬format = .json ↔ format = .table := by
  cases format <;> simp

/-- With `--output json` in the place of a `--json` a format is named, and it is one that was named
before. -/
theorem exists_format_of_respelled {default : Option String}
    (h : (lastOutput? (front ++ .json :: back)).or default = named.map OutputFormat.name) :
    ∃ format : OutputFormat,
      lastOutput? (front ++ .output "json" :: back) = some format.name ∧
      (format = .table ↔ lastOutput? back = some "table") := by
  rw [lastOutput?_append, lastOutput?_json] at h
  rw [lastOutput?_append, lastOutput?_output]
  cases hlast : lastOutput? back with
  | none => exact ⟨.json, rfl, by simp⟩
  | some value =>
    rw [hlast] at h
    obtain ⟨format, -, hformat⟩ := Option.map_eq_some_iff.mp h.symm
    refine ⟨format, by rw [hformat]; rfl, ?_⟩
    rw [← hformat, Option.some.injEq, name_eq_table_iff]

theorem chosen_ne_iff (h : lastOutput? (front ++ .json :: back) = named.map OutputFormat.name)
    {format' : OutputFormat}
    (h' : lastOutput? (front ++ .output "json" :: back) = some format'.name) :
    chosen (some format') format (front ++ .output "json" :: back) ≠
      chosen named format (front ++ .json :: back) ↔ Overruled front back := by
  rw [lastOutput?_append, lastOutput?_json] at h
  rw [lastOutput?_append, lastOutput?_output] at h'
  cases hlast : lastOutput? back with
  | none =>
    -- the option that is spelled in two ways names the format last
    obtain rfl : format' = .json := by
      cases format' <;> simp_all [OutputFormat.name]
    rw [hlast, Option.none_or] at h
    cases front with
    | nil => simp [chosen, Overruled, hlast]
    | cons option front =>
      cases option with
      | json =>
        rw [lastOutput?_json] at h
        cases named with
        | none =>
          simp [chosen, Overruled, lastOutput?_append, lastOutput?_json, lastOutput?_output, hlast,
            h]
        | some named =>
          simp [chosen, Overruled, lastOutput?_append, lastOutput?_json, lastOutput?_output, hlast,
            h, name_eq_table_iff, @eq_comm _ OutputFormat.json, ne_json_iff]
      | output value => simp [chosen, Overruled, hlast]
  | some value =>
    rw [hlast, Option.some_or] at h h'
    obtain ⟨named, rfl, hnamed⟩ := Option.map_eq_some_iff.mp h.symm
    obtain rfl : format' = named := by
      cases format' <;> cases named <;> simp_all [OutputFormat.name]
    cases front with
    | nil =>
      simp [chosen, Overruled, hlast, ← hnamed, name_eq_table_iff, @eq_comm _ OutputFormat.json,
        ne_json_iff]
    | cons option front =>
      cases option with
      | json =>
        simp [chosen, Overruled, lastOutput?_append, lastOutput?_json, lastOutput?_output, hlast]
      | output value =>
        simp [chosen, Overruled, hlast, ← hnamed, name_eq_table_iff, ne_json_iff, and_assoc]

/-- Where a command has an option for the format, what was asked for before its name is void. -/
theorem chosen_of_ne_nil {row : List FormatOption}
    (h : lastOutput? row = named.map OutputFormat.name) (some : row ≠ [])
    (format format' : OutputFormat) :
    chosen named format row = chosen named format' row := by
  match row with
  | .json :: row => rfl
  | .output value :: row =>
    rw [lastOutput?_output] at h
    cases named with
    | none => cases hlast : lastOutput? row <;> simp [hlast] at h
    | some format => rfl

end FormatOption

namespace Arguments

variable {κ : Type} [DecidableEq κ]

theorem values_respelled {json output key : κ} (hjson : key ≠ json) (houtput : key ≠ output)
    (front back : List (κ × String)) (value value' : String) (positional : List String) :
    values ⟨front ++ (output, value') :: back, positional⟩ key =
      values ⟨front ++ (json, value) :: back, positional⟩ key := by
  simp [values, hjson.symm, houtput.symm]

end Arguments

section

variable {s : Surroundings} {before after : List String}

theorem GlobalOption.read_output_of_json {front back : List (GlobalOption × String)}
    {rest rest' : List String} {settings : RunSettings}
    (between : Options.FlagBetween specs false "--json" .json before after ⟨front, []⟩ ⟨back, rest⟩)
    (h : read s (before ++ "--json" :: after) = .ok (settings, rest')) :
    rest' = rest ∧ settings.format = .json ∧ ∃ format,
      read s (before ++ "--output" :: "json" :: after) =
        .ok ({ settings with format := format }, rest) ∧
      (format = .table ↔ .json ∉ FormatOption.row .json .output (front ++ back) ∧
        FormatOption.lastOutput? (FormatOption.row .json .output back) = some "table") := by
  obtain ⟨a, hread, hhalt, named, hnamed, hpath, rfl, rfl⟩ := read_eq_ok_iff.mp h
  have hjson : Options.read specs false (before ++ "--json" :: after) =
      .ok ⟨front ++ (.json, "") :: back, rest⟩ := between.read_json rfl
  obtain rfl := Except.ok.inj (hread.symm.trans hjson)
  let a' : Arguments GlobalOption := ⟨front ++ (.output, "json") :: back, rest⟩
  have hread' : Options.read specs false (before ++ "--output" :: "json" :: after) = .ok a' :=
    between.read_output rfl "json"
  have hother : ∀ key, key ≠ .json → key ≠ .output → a'.values key =
      Arguments.values ⟨front ++ (.json, "") :: back, rest⟩ key := fun key hjson houtput =>
    Arguments.values_respelled hjson houtput front back "" "json" rest
  have hrow : FormatOption.row .json .output (front ++ (.json, "") :: back) =
      FormatOption.row .json .output front ++ .json :: FormatOption.row .json .output back :=
    FormatOption.row_append _ _
  rw [FormatOption.last?_output (by decide : GlobalOption.output ≠ .json), hrow] at hnamed
  obtain ⟨format, hformat, htable⟩ := FormatOption.exists_format_of_respelled hnamed
  have hlast : a'.last? .output = some format.name := by
    rw [FormatOption.last?_output (by decide : GlobalOption.output ≠ .json),
      FormatOption.row_append]
    exact hformat
  have hhas : Arguments.has ⟨front ++ (GlobalOption.json, "") :: back, rest⟩ .json = true :=
    Arguments.has_iff.mpr (by simp)
  refine ⟨rfl, if_pos hhas, if a'.has .json then .json else format, ?_, ?_⟩
  · rw [read_eq_ok_iff]
    have hlog : logPath s a' =
        logPath s ⟨front ++ (GlobalOption.json, "") :: back, rest⟩ := by
      simp only [logPath, Arguments.last?, hother .logFile (by decide) (by decide)]
    refine ⟨a', hread', ?_, some format, by rw [hlast]; rfl, by rwa [hlog], ?_, rfl⟩
    · rw [halt?_eq_none_iff] at hhalt ⊢
      simpa only [Arguments.has, hother .version (by decide) (by decide),
        hother .help (by decide) (by decide)] using hhalt
    · simp only [Arguments.count, hlog, hother .verbose (by decide) (by decide)]
      simp only [Arguments.has, hother .quiet (by decide) (by decide)]
      rfl
  · have hmem : a'.has .json = true ↔ .json ∈ FormatOption.row .json .output (front ++ back) := by
      rw [Arguments.has_iff, FormatOption.json_mem_row_iff]
      simp [a']
    rw [← hmem, ← htable]
    cases a'.has .json <;> simp

theorem CommandOption.read_output_of_json {name : CommandName}
    {front back : Arguments CommandOption} {format chosen : OutputFormat} {asked : Request}
    (between : Options.FlagBetween (specs name) true "--json" .json before after front back)
    (h : read s name format (before ++ "--json" :: after) = .ok (chosen, asked)) :
    ∃ chosen', read s name format (before ++ "--output" :: "json" :: after) = .ok (chosen', asked) ∧
      (chosen' ≠ chosen ↔ FormatOption.Overruled (FormatOption.row .json .output front.given)
        (FormatOption.row .json .output back.given)) := by
  obtain ⟨a, hread, hhelp, named, hnamed, hrequest, rfl⟩ := read_eq_ok_iff.mp h
  have hjson : Options.read (specs name) true (before ++ "--json" :: after) =
      .ok ⟨front.given ++ (.json, "") :: back.given, front.positional ++ back.positional⟩ :=
    between.read_json (by cases name <;> rfl)
  obtain rfl := Except.ok.inj (hread.symm.trans hjson)
  let a' : Arguments CommandOption :=
    ⟨front.given ++ (.output, "json") :: back.given, front.positional ++ back.positional⟩
  have hread' : Options.read (specs name) true (before ++ "--output" :: "json" :: after) = .ok a' :=
    between.read_output (by cases name <;> rfl) "json"
  have same : Arguments.SameTask
      ⟨front.given ++ (.json, "") :: back.given, front.positional ++ back.positional⟩ a' :=
    ⟨rfl, fun key hjson houtput =>
      Arguments.values_respelled hjson houtput front.given back.given "" "json" _⟩
  have hrow : FormatOption.row .json .output (front.given ++ (.json, "") :: back.given) =
      FormatOption.row .json .output front.given ++
        .json :: FormatOption.row .json .output back.given := FormatOption.row_append _ _
  have hrow' : FormatOption.row .json .output a'.given =
      FormatOption.row .json .output front.given ++
        .output "json" :: FormatOption.row .json .output back.given := FormatOption.row_append _ _
  rw [FormatOption.last?_output (by decide : CommandOption.output ≠ .json), hrow] at hnamed
  obtain ⟨format', hformat', -⟩ :=
    FormatOption.exists_format_of_respelled ((Option.or_none).trans hnamed)
  refine ⟨formatAfter a' (some format') format, ?_, ?_⟩
  · rw [read_eq_ok_iff]
    refine ⟨a', hread', ?_, some format', ?_, ?_, rfl⟩
    · simpa only [Arguments.has, same.values .help (by decide) (by decide)] using hhelp
    · rw [FormatOption.last?_output (by decide : CommandOption.output ≠ .json), hrow']
      exact hformat'
    · rw [← hrequest]
      exact request_eq_of_same same s name
  · rw [formatAfter_eq, formatAfter_eq, hrow, hrow']
    exact FormatOption.chosen_ne_iff hnamed hformat'

end

/-- One `--json` of a command line that runs a command is spelled `--output json` in its place. Then
the line asks for the same as before, and the format changes in just these cases: before the name of
the command, where no other `--json` stands there, the last `--output` behind it is a table, and the
command has no option of its own for the format; behind the name, where the flag is overruled. -/
theorem CommandLine.read_respelled (s : Surroundings) (name : CommandName) :
    (∀ {before after words : List String} {front back : List (GlobalOption × String)}
        {a : Arguments CommandOption} {settings : RunSettings} {request : Request},
      Options.FlagBetween GlobalOption.specs false "--json" .json before after ⟨front, []⟩
        ⟨back, name.text :: words⟩ →
      Options.read (CommandOption.specs name) true words = .ok a →
      read s (before ++ "--json" :: after) = .ok (settings, request) →
      ∃ format, read s (before ++ "--output" :: "json" :: after) =
          .ok ({ settings with format := format }, request) ∧
        (format ≠ settings.format ↔ FormatOption.row .json .output a.given = [] ∧
          .json ∉ FormatOption.row .json .output (front ++ back) ∧
          FormatOption.lastOutput? (FormatOption.row .json .output back) = some "table")) ∧
    (∀ {globals before after : List String} {general : RunSettings}
        {front back : Arguments CommandOption} {settings : RunSettings} {request : Request},
      GlobalOption.read s (globals ++ [name.text]) = .ok (general, [name.text]) →
      Options.FlagBetween (CommandOption.specs name) true "--json" .json before after front back →
      read s (globals ++ name.text :: (before ++ "--json" :: after)) = .ok (settings, request) →
      ∃ format, read s (globals ++ name.text :: (before ++ "--output" :: "json" :: after)) =
          .ok ({ settings with format := format }, request) ∧
        (format ≠ settings.format ↔ FormatOption.Overruled
          (FormatOption.row .json .output front.given)
          (FormatOption.row .json .output back.given))) := by
  constructor
  · intro before after words front back a settings request between hwords h
    obtain ⟨general, name', words', chosen, hgeneral, hcommand, rfl⟩ := read_eq_ok_iff.mp h
    obtain ⟨hrest, hjson, format, hgeneral', htable⟩ :=
      GlobalOption.read_output_of_json between hgeneral
    obtain ⟨hname, rfl⟩ := List.cons.inj hrest
    obtain rfl := CommandName.text_injective hname
    obtain ⟨a', ha', hhelp, named, hnamed, hrequest, rfl⟩ :=
      CommandOption.read_eq_ok_iff.mp hcommand
    obtain rfl := Except.ok.inj (ha'.symm.trans hwords)
    have hcommand' := CommandOption.read_eq_ok_iff.mpr
      ⟨a', ha', hhelp, named, hnamed, hrequest, Eq.refl (CommandOption.formatAfter a' named format)⟩
    refine ⟨_, read_eq_ok_iff.mpr ⟨_, name', words', _, hgeneral', hcommand', rfl⟩, ?_⟩
    rw [FormatOption.last?_output (by decide : CommandOption.output ≠ .json)] at hnamed
    rw [CommandOption.formatAfter_eq, CommandOption.formatAfter_eq, ← htable, hjson]
    by_cases hnone : FormatOption.row .json .output a'.given = []
    · simp [hnone, FormatOption.chosen, FormatOption.ne_json_iff]
    · simp [hnone, FormatOption.chosen_of_ne_nil hnamed hnone format .json]
  · intro globals before after general front back settings request named between h
    obtain ⟨chosen, hcommand, rfl⟩ := (read_append_cons_eq_ok_iff named).mp h
    obtain ⟨format, hcommand', hdiffers⟩ := CommandOption.read_output_of_json between hcommand
    exact ⟨format, (read_append_cons_eq_ok_iff named).mpr ⟨format, hcommand', rfl⟩, hdiffers⟩

theorem CommandLine.read_respelled_version :
    let s : Surroundings := .bare ""
    let general : RunSettings := ⟨.json, false, 0, none⟩
    (Options.FlagBetween GlobalOption.specs false "--json" .json ["-q"]
        ["--output", "table", "version"] ⟨[(.quiet, "")], []⟩ ⟨[(.output, "table")], ["version"]⟩ ∧
      ∃ format, read s ["-q", "--output", "json", "--output", "table", "version"] =
          .ok (⟨format, true, 0, none⟩, .version) ∧
        (format ≠ .json ↔ FormatOption.row CommandOption.json .output [] = [] ∧
          .json ∉ FormatOption.row GlobalOption.json .output [(.quiet, ""), (.output, "table")] ∧
          FormatOption.lastOutput? [.output "table"] = some "table")) ∧
    (Options.FlagBetween (CommandOption.specs .parse) true "--json" .json ["--output", "json", "A"]
        ["--output", "table"] ⟨[(.output, "json")], ["A"]⟩ ⟨[(.output, "table")], []⟩ ∧
      ∃ format, read s
          ["--json", "parse", "--output", "json", "A", "--output", "json", "--output", "table"] =
          .ok ({ general with format := format }, .parse "A") ∧
        (format ≠ .json ↔ FormatOption.Overruled [.output "json"] [.output "table"])) := by
  intro s general
  have before : Options.FlagBetween GlobalOption.specs false "--json" .json ["-q"]
      ["--output", "table", "version"] ⟨[(.quiet, "")], []⟩ ⟨[(.output, "table")], ["version"]⟩ :=
    ⟨rfl, rfl, rfl⟩
  have behind : Options.FlagBetween (CommandOption.specs .parse) true "--json" .json
      ["--output", "json", "A"] ["--output", "table"] ⟨[(.output, "json")], ["A"]⟩
      ⟨[(.output, "table")], []⟩ := ⟨rfl, rfl, rfl⟩
  have version : Options.read (CommandOption.specs .version) true [] = .ok ⟨[], []⟩ := rfl
  have named : GlobalOption.read s (["--json"] ++ [CommandName.parse.text]) =
      .ok (general, [CommandName.parse.text]) := rfl
  exact ⟨⟨before, (read_respelled s .version).1 before version rfl⟩,
    ⟨behind, (read_respelled s .parse).2 named behind rfl⟩⟩

/-- The format is not that of the last option for it, before a command's name and behind it. -/
theorem CommandLine.json_overruled :
    let s : Surroundings := .bare ""
    let settings : OutputFormat → RunSettings := fun format => ⟨format, false, 0, none⟩
    read s ["--json", "--output", "table", "version"] = .ok (settings .json, .version) ∧
    read s ["--output", "json", "--output", "table", "version"] = .ok (settings .table, .version) ∧
    read s ["version", "--json", "--output", "table", "--json"] = .ok (settings .table, .version) ∧
    read s ["version", "--json", "--output", "table", "--output", "json"] =
      .ok (settings .json, .version) :=
  ⟨rfl, rfl, rfl, rfl⟩

end PathFilter
