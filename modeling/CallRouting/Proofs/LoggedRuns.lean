import CallRouting.Proofs.Recording

/-!
# Logging changes no result

A command line may give a log level in front of its command. The run then writes log records to
the error stream, and to a log file if the environment names one, and comes to the same otherwise,
unless the level is refused or the log file gets in the way.

* **Levels** (`LogLevel.ofName_eq_error_iff`, `LogLevel.ofName_unknown`): of all names two are
  refused, and every other one that is not known stands for INFO.
* **Command lines** (`AddsLevel`, `addsLevel_front`): a level is added to a command line that names
  a command and no level. Nothing else is read differently (`readCall_of_addsLevel`).
* **Outcomes** (`LogsOnly`): one outcome is the other one with log lines in front of the lines of
  the error stream. A command has none of its own (`Outcome.IsBare`), so the lines tell what the
  command came to (`logsOnly_withRecords_iff`).
* **Runs** (`logsOnly_iff`): the run with the level only logs, unless the level is one of the two,
  or the log file cannot be opened, or the command comes to something else for it is there; and the
  command is run at all.
-/

namespace CallRouting

open Exchange (Tells)

/-! ## Levels -/

/-- The names that are refused as levels. -/
theorem LogLevel.ofName_eq_error_iff {name : String} :
    (∃ e, ofName name = .error e) ↔ Text.capitals name ∈ ["BASIC_FORMAT", "_STYLES"] := by
  constructor
  · rintro ⟨e, he⟩
    unfold ofName at he
    dsimp only at he
    split at he
    · cases he
    · split_ifs at he with hformat htable
      · rw [hformat]
        exact List.mem_cons_self
      · rw [htable]
        exact List.mem_cons_of_mem _ List.mem_cons_self
  · intro hmem
    -- neither of the two is the name of a level
    have hreserved : ∀ reserved ∈ ["BASIC_FORMAT", "_STYLES"], byName.lookup reserved = none := by
      decide +kernel
    have hcases : Text.capitals name = "BASIC_FORMAT" ∨ Text.capitals name = formatTable := by
      simpa [formatTable] using hmem
    unfold ofName
    simp only [hreserved _ hmem]
    rcases hcases with hformat | htable
    · exact ⟨_, if_pos hformat⟩
    · have hne : Text.capitals name ≠ "BASIC_FORMAT" := by
        rw [htable]
        decide +kernel
      rw [if_neg hne]
      exact ⟨_, if_pos htable⟩

/-- Any other name that is not known stands for INFO. -/
theorem LogLevel.ofName_unknown {name : String}
    (hunknown : byName.lookup (Text.capitals name) = none)
    (h : Text.capitals name ∉ ["BASIC_FORMAT", "_STYLES"]) : ofName name = .ok .info := by
  have hformat : Text.capitals name ≠ "BASIC_FORMAT" := fun heq => h (by simp [heq])
  have htable : Text.capitals name ≠ formatTable := fun heq => h (by simp [heq, formatTable])
  simp only [ofName, hunknown, if_neg hformat, if_neg htable]

/-- A text that is not empty is given. -/
theorem Logging.given?_of_ne {text : String} (h : text ≠ "") : given? (some text) = some text := by
  simp [given?, Option.filter, h]

/-- A level that is given is the one that is set up; the environment has a say in the file only. -/
theorem Logging.setUp_level {level : String} (hlevel : level ≠ "") (env? : String → Option String) :
    setUp none (some level) env? =
      (LogLevel.ofName level).map fun l => ⟨l, given? (env? "DIALPLAN_LOG_FILE")⟩ := by
  rw [setUp, given?_of_ne hlevel, Option.getD_some]
  cases LogLevel.ofName level <;> rfl

namespace CommandLine

/-! ## Command lines -/

/-- Whether the second command line is the first one with a log level besides, in any place among
the options in front of the command, where the first one names a command and no level. -/
def AddsLevel (level : String) (words leveled : List String) : Prop :=
  ∃ before after name rest verb,
    sort generalOptions false words = some ⟨before ++ after, name :: rest⟩ ∧
      sort generalOptions false leveled =
        some ⟨before ++ ("log-level", some level) :: after, name :: rest⟩ ∧
      (∀ option ∈ before ++ after, option.1 ≠ "log-level") ∧ Verb.ofName? name = some verb

/-- A level can be put in front of a command line, as a word of its own or behind an equals sign. -/
theorem addsLevel_front {words : List String} {options : List (String × Option String)}
    {name : String} {rest : List String} {verb : Verb}
    (hsort : sort generalOptions false words = some ⟨options, name :: rest⟩)
    (hnone : ∀ option ∈ options, option.1 ≠ "log-level") (hname : Verb.ofName? name = some verb)
    (level : String) :
    AddsLevel level words ("--log-level" :: level :: words) ∧
      AddsLevel level words (("--log-level=" ++ level) :: words) := by
  have hword : Word.ofString "--log-level" = .long "log-level" none := by decide +kernel
  have hattached : Word.ofString ("--log-level=" ++ level) = .long "log-level" (some level) := by
    rw [Word.ofString, String.toList_append]
    change Word.long (String.ofList "log-level".toList) (some (String.ofList level.toList)) = _
    rw [String.ofList_toList, String.ofList_toList]
  have hspec : generalOptions.find? (·.name = "log-level") = some ⟨"log-level", none, true⟩ := by
    decide +kernel
  refine ⟨⟨[], options, name, rest, verb, hsort, ?_, hnone, hname⟩,
    ⟨[], options, name, rest, verb, hsort, ?_, hnone, hname⟩⟩
  · rw [sort, hword]
    simp only [hspec, hsort]
    rfl
  · rw [sort, hattached]
    simp only [hspec, hsort]
    rfl

/-- A level can be put in front of a command. -/
theorem addsLevel_command {name : String} {verb : Verb} (hname : Verb.ofName? name = some verb)
    (rest : List String) (level : String) :
    AddsLevel level (name :: rest) ("--log-level" :: level :: name :: rest) := by
  have hargument : Word.ofString name = .argument := by
    have hnames : ∀ entry ∈ [("match", Verb.fit), ("transform", .transform), ("route", .route),
        ("check", .check)], Word.ofString entry.1 = .argument := by
      decide +kernel
    obtain ⟨before, after, hsplit, -⟩ := List.lookup_eq_some_iff.mp hname
    exact hnames (name, verb) (hsplit ▸ List.mem_append_right _ List.mem_cons_self)
  have hsort : sort generalOptions false (name :: rest) = some ⟨[], name :: rest⟩ := by
    rw [sort, hargument]
    rfl
  exact (addsLevel_front hsort (List.forall_mem_nil _) hname level).1

/-- **Nothing else is read differently** when a level is added. -/
theorem readCall_of_addsLevel {level : String} {words leveled : List String}
    (h : AddsLevel level words leveled) :
    readCall words = .help ∧ readCall leveled = .help ∨
      ∃ verb rest, readCall words = .done ⟨none, verb, rest⟩ ∧
        readCall leveled = .done ⟨some level, verb, rest⟩ := by
  obtain ⟨before, after, name, rest, verb, hsort, hsort', hnone, hname⟩ := h
  have hvalue : Sorted.value? ⟨before ++ after, name :: rest⟩ "log-level" = none := by
    rw [Sorted.value?, List.find?_eq_none.mpr]
    · rfl
    · intro option hoption
      simpa using hnone option (List.mem_reverse.mp hoption)
  have hvalue' : Sorted.value? ⟨before ++ ("log-level", some level) :: after, name :: rest⟩
      "log-level" = some level := by
    have hafter : after.reverse.find? (·.1 = "log-level") = none := by
      refine List.find?_eq_none.mpr fun option hoption => ?_
      simpa using hnone option (List.mem_append_right _ (List.mem_reverse.mp hoption))
    simp [Sorted.value?, List.find?_append, hafter]
  have hhelp : Sorted.has ⟨before ++ ("log-level", some level) :: after, name :: rest⟩ "help" =
      Sorted.has ⟨before ++ after, name :: rest⟩ "help" := by
    simp [Sorted.has]
  unfold readCall
  simp only [hsort, hsort', hhelp, hvalue, hvalue', hname]
  cases Sorted.has ⟨before ++ after, name :: rest⟩ "help" with
  | true => exact Or.inl ⟨rfl, rfl⟩
  | false => exact Or.inr ⟨verb, rest, rfl, rfl⟩

/-! ## Outcomes -/

/-- Whether an outcome with logging is the one without it, with log lines in front of the lines of
the error stream. Each of them is one line and reads back as an object. -/
structure LogsOnly (bare leveled : Outcome) : Prop where
  exitCode : leveled.exitCode = bare.exitCode
  output : leveled.output = bare.output
  uncaught : leveled.uncaught = bare.uncaught
  errors : ∃ records : List LogRecord,
    leveled.errors = records.map .record ++ bare.errors ∧
      ∀ r ∈ records, ∀ time, (∀ c ∈ (r.line time).toList, 0x20 ≤ c.toNat) ∧
        ∃ fields, Json.read 1 (r.line time) = .ok (.obj fields)

/-- Nothing need be logged. -/
theorem LogsOnly.refl (o : Outcome) : LogsOnly o o :=
  ⟨rfl, rfl, rfl, [], rfl, List.forall_mem_nil _⟩

/-- Whether two launches both come to an outcome, and the second one only logs. -/
def OnlyLogs (bare leveled : Except OpenFault Outcome) : Prop :=
  ∃ o o', bare = .ok o ∧ leveled = .ok o' ∧ LogsOnly o o'

/-- Launches that come to outcomes. -/
theorem onlyLogs_ok_iff {o o' : Outcome} : OnlyLogs (.ok o) (.ok o') ↔ LogsOnly o o' := by
  simp [OnlyLogs]

/-- Whether an outcome has no log records, and no level and no file for them. -/
structure Outcome.IsBare (o : Outcome) : Prop where
  records : ∀ r, .record r ∉ o.errors
  logFile : o.logFile = none
  level : ∀ e, o.uncaught ≠ some (.level e)

/-- What stands behind the records of two equal lists of lines is the same, if it has no records. -/
theorem eq_of_records_append {records records' : List LogRecord} {lines lines' : List ErrorLine}
    (hlines : ∀ r, .record r ∉ lines) (hlines' : ∀ r, .record r ∉ lines')
    (h : records.map .record ++ lines = records'.map .record ++ lines') : lines = lines' := by
  induction records generalizing records' with
  | nil =>
    cases records' with
    | nil => exact h
    | cons r rest =>
      rw [List.map_nil, List.nil_append] at h
      exact absurd (h ▸ List.mem_cons_self) (hlines r)
  | cons r rest ih =>
    cases records' with
    | nil =>
      rw [List.map_nil, List.nil_append] at h
      exact absurd (h ▸ List.mem_cons_self) (hlines' r)
    | cons r' rest' => exact ih (List.cons.inj h).2

/-- **An outcome with records only logs** exactly if it is the other one without them. -/
theorem logsOnly_withRecords_iff {o o' : Outcome} (ho : o.IsBare) (ho' : o'.IsBare)
    (logging : Logging) {records : List LogRecord} (h : ∀ r ∈ records, r.context.IsTextual 0) :
    LogsOnly o (o'.withRecords logging records) ↔ o' = o := by
  constructor
  · intro hlogs
    obtain ⟨records', herrors, -⟩ := hlogs.errors
    have hlines : o'.errors = o.errors := eq_of_records_append ho'.records ho.records herrors
    have hfile : o'.logFile = o.logFile := ho'.logFile.trans ho.logFile.symm
    have hexit : o'.exitCode = o.exitCode := hlogs.exitCode
    have houtput : o'.output = o.output := hlogs.output
    have huncaught : o'.uncaught = o.uncaught := hlogs.uncaught
    cases o
    cases o'
    simp_all only
  · rintro rfl
    refine ⟨rfl, rfl, rfl, logging.select records, rfl, fun r hr time => ?_⟩
    have htextual := h r (List.mem_of_mem_filter hr)
    exact ⟨LogRecord.printable_of_mem_line htextual time, _, LogRecord.read_line htextual time⟩

section Bare

variable {s : Surroundings} {x : Exchange}

/-- A failure that is reported. -/
theorem isBare_failed (exitCode : Nat) (code message : String) :
    (Outcome.failed exitCode code message).IsBare := by
  constructor <;> simp [Outcome.failed]

/-- A result that is printed. -/
theorem isBare_printed (exitCode : Nat) (format : Format) (result : Json) :
    (Outcome.printed exitCode format result).IsBare := by
  constructor <;> simp [Outcome.printed]

/-- A call that ends the run. -/
theorem isBare_stopped_call (failure : CallError) : (Outcome.stopped (.call failure)).IsBare := by
  constructor <;> simp [Outcome.stopped]

/-- A call that fails. -/
theorem isBare_callFailure (failure : CallError) : (callFailure failure).IsBare := by
  cases failure with
  | tooDeep => exact isBare_stopped_call .tooDeep
  | _ => exact isBare_failed _ _ _

/-- A dial plan that cannot be loaded. -/
theorem isBare_loadFailure (failure : LoadError) : (loadFailure failure).IsBare := by
  constructor <;> cases failure <;> simp [loadFailure, Outcome.failed, Outcome.stopped]

/-- **No command has log records of its own.** -/
theorem isBare_run (c : Command) (format : Format) : (c.run s format x).1.IsBare := by
  cases c with
  | fit pattern input =>
    simp only [Command.run, runFit, Exchange.run_bind_apply]
    cases (Exchange.fit? pattern (readInput s input) x).1 with
    | error failure => exact isBare_callFailure failure
    | ok f => exact isBare_printed _ _ _
  | transform input pattern template lenient =>
    simp only [Command.run, runTransform, Exchange.get_bind_apply, Exchange.run_bind_apply]
    cases (Exchange.transform (!lenient && x.settings.strictTemplates) (readInput s input) pattern
        template x).1 with
    | error failure => exact isBare_callFailure failure
    | ok result => exact isBare_printed _ _ _
  | route rules destination sender direction =>
    simp only [Command.run, runRoute, Exchange.work_bind_apply]
    cases (loadPlan s rules x).1 with
    | error failure => exact isBare_loadFailure failure
    | ok plan =>
      simp only [Exchange.run_bind_apply]
      rcases (plan.route destination sender direction (loadPlan s rules x).2).1 with
        failure | _ | taken
      · cases failure with
        | template failure => exact isBare_callFailure (.template failure)
        | pattern failure => exact isBare_stopped_call (.pattern failure)
        | noFit number pattern => exact isBare_stopped_call (.noFit number pattern)
        | tooDeep => exact isBare_stopped_call .tooDeep
      · exact isBare_failed _ _ _
      · exact isBare_printed _ _ _
  | check rules =>
    simp only [Command.run, runCheck, Exchange.work_bind_apply]
    cases (loadPlan s rules x).1 with
    | error failure => exact isBare_loadFailure failure
    | ok plan => exact isBare_printed _ _ _

/-- The words behind a command, the usage page included. -/
theorem isBare_runWords (verb : Verb) (words : List String) :
    (runWords s verb words x).1.IsBare := by
  have husage : Outcome.usage.IsBare := by constructor <;> simp [Outcome.usage]
  have hhelp : Outcome.help.IsBare := by constructor <;> simp [Outcome.help]
  unfold runWords
  cases readCommand verb words with
  | unclear => exact husage
  | help => exact hhelp
  | done command => exact isBare_run command.1 command.2

end Bare

/-! ## Runs -/

section Runs

variable (s : Surroundings) (env? : String → Option String) (x : Exchange)
  {level : String} {words : List String} {verb : Verb} {rest : List String}

/-- A run that is asked for the usage page. -/
theorem run_help (h : readCall words = .help) : run s env? words x = (.help, x) := by
  rw [run, h]
  rfl

/-- A run without a level. -/
theorem run_bare (h : readCall words = .done ⟨none, verb, rest⟩) :
    run s env? words x = runWords s verb rest x := by
  rw [run, h]
  rfl

/-- A run with a level is stopped, or its records are collected. -/
theorem run_given (h : readCall words = .done ⟨some level, verb, rest⟩) (hlevel : level ≠ "") :
    run s env? words x =
      match LogLevel.ofName level with
      | .error e => (.stopped (.level e), x)
      | .ok l =>
        let recorded := Exchange.recording (runWords s verb rest) x
        (recorded.1.1.withRecords ⟨l, Logging.given? (env? "DIALPLAN_LOG_FILE")⟩ recorded.1.2,
          recorded.2) := by
  rw [run, h]
  simp only [Logging.given?_of_ne hlevel, Logging.setUp_level hlevel]
  cases LogLevel.ofName level <;> rfl

/-- A run with a level comes to what the words behind the command come to, and the records are those
that they write. -/
theorem run_leveled (h : readCall words = .done ⟨some level, verb, rest⟩) (hlevel : level ≠ "")
    {l : LogLevel} (hl : LogLevel.ofName level = .ok l) :
    ∃ records : List LogRecord, (∀ r ∈ records, r.context.IsTextual 0) ∧
      run s env? words x =
        ((runWords s verb rest x).1.withRecords
          ⟨l, Logging.given? (env? "DIALPLAN_LOG_FILE")⟩ records, (runWords s verb rest x).2) := by
  have htells : Tells (runWords s verb rest) := inferInstance
  obtain ⟨records, hrecords, hrecording⟩ := htells.recording_apply x
  refine ⟨records, hrecords, ?_⟩
  rw [run_given s env? x h hlevel, hl, hrecording]

/-- **A run with a level only logs** exactly if the level is not refused and the command comes to
the same with the files that the run finds. -/
theorem logsOnly_run_iff (h : readCall words = .done ⟨some level, verb, rest⟩) (hlevel : level ≠ "")
    (files : Files) :
    LogsOnly (runWords s verb rest x).1 (run { s with files } env? words x).1 ↔
      Text.capitals level ∉ ["BASIC_FORMAT", "_STYLES"] ∧
        (runWords { s with files } verb rest x).1 = (runWords s verb rest x).1 := by
  cases hl : LogLevel.ofName level with
  | error e =>
    refine iff_of_false (fun hlogs => ?_)
      fun hgood => hgood.1 (LogLevel.ofName_eq_error_iff.mp ⟨e, hl⟩)
    have huncaught := hlogs.uncaught
    rw [run_given _ env? x h hlevel, hl] at huncaught
    exact (isBare_runWords verb rest).level e huncaught.symm
  | ok l =>
    have hname : Text.capitals level ∉ ["BASIC_FORMAT", "_STYLES"] := by
      intro hmem
      obtain ⟨e, he⟩ := LogLevel.ofName_eq_error_iff.mpr hmem
      rw [hl] at he
      cases he
    obtain ⟨records, hrecords, hrun⟩ := run_leveled { s with files } env? x h hlevel hl
    rw [hrun, logsOnly_withRecords_iff (isBare_runWords verb rest) (isBare_runWords verb rest) _
      hrecords]
    exact (and_iff_right hname).symm

end Runs

/-! ## Launches -/

section Launches

variable (s : Surroundings) (opening : Opening) (env? : String → Option String) (x : Exchange)
  {level : String} {words : List String} {verb : Verb} {rest : List String}

/-- For the usage page no log file is opened. -/
theorem launch_help (h : readCall words = .help) :
    launch s opening env? words x = (.ok .help, x) := by
  have hlogs : logs words = false := by rw [logs, h]
  simp only [launch, hlogs, Bool.false_eq_true, if_false, Exchange.work_bind_apply,
    run_help _ _ _ h]
  rfl

/-- Without a level no log file is opened. -/
theorem launch_bare (h : readCall words = .done ⟨none, verb, rest⟩) :
    launch s opening env? words x =
      (.ok (runWords s verb rest x).1, (runWords s verb rest x).2) := by
  have hlogs : logs words = false := by
    rw [logs, h]
    rfl
  simp only [launch, hlogs, Bool.false_eq_true, if_false, Exchange.work_bind_apply,
    run_bare _ _ _ h]
  rfl

/-- With a level, the run finds the files as they are when the log file is open. -/
theorem launch_given (h : readCall words = .done ⟨some level, verb, rest⟩) (hlevel : level ≠ "") :
    launch s opening env? words x =
      match openLog opening env? s.files with
      | .error fault => (.error fault, x)
      | .ok files =>
        (.ok (run { s with files } env? words x).1, (run { s with files } env? words x).2) := by
  have hlogs : logs words = true := by
    rw [logs, h]
    simp only [Logging.given?_of_ne hlevel]
    rfl
  simp only [launch, hlogs, if_true]
  cases openLog opening env? s.files <;> rfl

/-- Two names that stand for the same level make the same launch. -/
theorem launch_eq_of_ofName_eq {leveled : List String} (hadds : AddsLevel level words leveled)
    (hlevel : level ≠ "") {level' : String} {leveled' : List String}
    (hadds' : AddsLevel level' words leveled') (hlevel' : level' ≠ "")
    (hsame : LogLevel.ofName level = LogLevel.ofName level') :
    launch s opening env? leveled x = launch s opening env? leveled' x := by
  rcases readCall_of_addsLevel hadds with ⟨hwords, hleveled⟩ | ⟨verb, rest, hwords, hleveled⟩ <;>
    rcases readCall_of_addsLevel hadds' with ⟨hwords', hleveled'⟩ | ⟨_, _, hwords', hleveled'⟩ <;>
    rw [hwords] at hwords' <;> cases hwords'
  · rw [launch_help s opening env? x hleveled, launch_help s opening env? x hleveled']
  · have hrun : ∀ files,
        run { s with files } env? leveled x = run { s with files } env? leveled' x := by
      intro files
      rw [run_given _ env? x hleveled hlevel, run_given _ env? x hleveled' hlevel', hsame]
    simp only [launch_given s opening env? x hleveled hlevel,
      launch_given s opening env? x hleveled' hlevel', hrun]

end Launches

/-- **Logging changes no result, unless the level is one of two names or the log file is in the
way.** A level that is not empty is added to a command line that names a command. The run has the
same exit code, prints the same, lets the same failure through, and has log lines in front of the
lines of the error stream, exactly if the usage page is asked for, or the level is neither
`BASIC_FORMAT` nor `_STYLES` in any letter case, and the log file that the environment names, if it
names one, can be opened, and the command comes to the same once it is there. A level that is not
known and none of the two does what INFO does. -/
theorem logsOnly_iff {level : String} {words leveled : List String}
    (hadds : AddsLevel level words leveled) (hlevel : level ≠ "") (s : Surroundings)
    (opening : Opening) (env? : String → Option String) (x : Exchange) :
    (OnlyLogs (launch s opening env? words x).1 (launch s opening env? leveled x).1 ↔
        readCall words = .help ∨ Text.capitals level ∉ ["BASIC_FORMAT", "_STYLES"] ∧
          ∃ files, openLog opening env? s.files = .ok files ∧
            (run { s with files } env? words x).1 = (run s env? words x).1) ∧
      ∀ informed, AddsLevel "INFO" words informed →
        LogLevel.byName.lookup (Text.capitals level) = none →
        Text.capitals level ∉ ["BASIC_FORMAT", "_STYLES"] →
        launch s opening env? leveled x = launch s opening env? informed x := by
  refine ⟨?_, fun informed hinformed hunknown hname => ?_⟩
  · rcases readCall_of_addsLevel hadds with ⟨hwords, hleveled⟩ | ⟨verb, rest, hwords, hleveled⟩
    · rw [launch_help s opening env? x hwords, launch_help s opening env? x hleveled]
      exact iff_of_true (onlyLogs_ok_iff.mpr (.refl _)) (Or.inl hwords)
    · have hnoHelp : ¬ readCall words = .help := by simp [hwords]
      rw [launch_bare s opening env? x hwords, launch_given s opening env? x hleveled hlevel,
        or_iff_right hnoHelp]
      cases hopen : openLog opening env? s.files with
      | error fault => simp [OnlyLogs]
      | ok files =>
        dsimp only
        rw [onlyLogs_ok_iff, logsOnly_run_iff s env? x hleveled hlevel]
        simp [run_bare _ env? x hwords]
  · have hinfo : "INFO" ≠ "" := by decide +kernel
    exact launch_eq_of_ofName_eq s opening env? x hadds hlevel hinformed hinfo
      (LogLevel.ofName_unknown hunknown hname)

/-- A run without files, standard input and environment, of an exchange that was just started; no
file can be opened. -/
def runAlone (words : List String) : Except OpenFault Outcome × Exchange :=
  launch ⟨fun _ => .error .missing, "", ""⟩ (fun path => .error ⟨path, .noPermission⟩)
    (fun _ => none) words (Exchange.start {})

/-- A command line that fits a number, and a level that is not known. -/
theorem logsOnly_iff_chatty :
    OnlyLogs (runAlone ["match", "X", "1"]).1
        (runAlone ["--log-level", "chatty", "match", "X", "1"]).1 ∧
      runAlone ["--log-level", "chatty", "match", "X", "1"] =
        runAlone ["--log-level", "INFO", "match", "X", "1"] := by
  have hmatch : Verb.ofName? "match" = some .fit := by decide +kernel
  have hadds : ∀ level, AddsLevel level ["match", "X", "1"]
      ("--log-level" :: level :: ["match", "X", "1"]) := addsLevel_command hmatch ["X", "1"]
  have hne : "chatty" ≠ "" := by decide +kernel
  have hname : Text.capitals "chatty" ∉ ["BASIC_FORMAT", "_STYLES"] := by decide +kernel
  obtain ⟨hlogs, hinfo⟩ := logsOnly_iff (hadds "chatty") hne ⟨fun _ => .error .missing, "", ""⟩
    (fun path => .error ⟨path, .noPermission⟩) (fun _ => none) (Exchange.start {})
  exact ⟨hlogs.mpr (Or.inr ⟨hname, _, rfl, rfl⟩), hinfo _ (hadds "INFO") (by decide +kernel) hname⟩

/-- The same command line with a level of one of the two names: the run is stopped before the number
is looked at. -/
theorem logging_stops_run :
    AddsLevel "basic_format" ["match", "X", "1"]
        ["--log-level", "basic_format", "match", "X", "1"] ∧
      (∃ o, (runAlone ["--log-level", "basic_format", "match", "X", "1"]).1 = .ok o ∧
        o.uncaught = some (.level (.unknownText basicFormat))) ∧
      ¬ OnlyLogs (runAlone ["match", "X", "1"]).1
        (runAlone ["--log-level", "basic_format", "match", "X", "1"]).1 := by
  have hmatch : Verb.ofName? "match" = some .fit := by decide +kernel
  have hadds : AddsLevel "basic_format" ["match", "X", "1"]
      ["--log-level", "basic_format", "match", "X", "1"] :=
    addsLevel_command hmatch ["X", "1"] "basic_format"
  obtain ⟨verb, rest, hwords, hleveled⟩ :
      ∃ verb rest, readCall ["match", "X", "1"] = .done ⟨none, verb, rest⟩ ∧
        readCall ["--log-level", "basic_format", "match", "X", "1"] =
          .done ⟨some "basic_format", verb, rest⟩ :=
    ⟨.fit, ["X", "1"], by decide +kernel, by decide +kernel⟩
  have hne : "basic_format" ≠ "" := by decide +kernel
  have hrefused : LogLevel.ofName "basic_format" = .error (.unknownText basicFormat) := by
    decide +kernel
  refine ⟨hadds, ⟨.stopped (.level (.unknownText basicFormat)), ?_, rfl⟩, ?_⟩
  · rw [runAlone, launch_given _ _ _ _ hleveled hne]
    change Except.ok (run _ _ _ _).1 = _
    rw [run_given _ _ _ hleveled hne, hrefused]
  · rw [runAlone, runAlone, launch_bare _ _ _ _ hwords, launch_given _ _ _ _ hleveled hne]
    change ¬ OnlyLogs (.ok _) (.ok (run _ _ _ _).1)
    rw [onlyLogs_ok_iff]
    intro hlogs
    have huncaught := hlogs.uncaught
    rw [run_given _ _ _ hleveled hne, hrefused] at huncaught
    exact (isBare_runWords verb rest).level _ huncaught.symm

end CommandLine

end CallRouting
