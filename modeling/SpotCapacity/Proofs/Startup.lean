import SpotCapacity.Proofs.Log.Setup
import SpotCapacity.Proofs.Outage

/-!
# The start of the program

The program sets up logging twice, by its environment and then by its configuration, which takes any text as
the level of the log. It goes on to its work with the level of that name, unless the name is that of a
standard format: then the setup is refused, and the program ends of it (`Program.run_takes_level`). The
configuration is accepted all the same (`Program.formatName_ends_run`).
-/

namespace SpotCapacity

/-- Texts that can be read make a configuration. The level of the log is not among those that may be
refused. -/
theorem Configuration.exists_ofRaw {text : Setting → String}
    (readable : ∀ setting ∈ Setting.validated, setting.Readable (text setting)) :
    ∃ config, (ofRaw fun setting => some (text setting)) = .ok config := by
  rcases outcome : ofRaw fun setting => some (text setting) with fault | config
  · obtain ⟨before, setting, after, place, -, refused⟩ := ofRaw_eq_error_iff.mp outcome
    have member : setting ∈ Setting.validated := by
      rw [place]
      exact List.mem_append_right _ List.mem_cons_self
    obtain ⟨value, read⟩ := Setting.readable_iff.mp (readable setting member)
    rw [refused] at read
    cases read
  · exact ⟨config, rfl⟩

/-- Executions that are alike stay so when both are given one root logger. -/
theorem Execution.Alike.withRoot {execution other : Execution} (alike : execution.Alike other)
    (root : RootLogger) : { execution with root := root }.Alike { other with root := root } :=
  ⟨rfl, alike.session, alike.snapshots, alike.handled, alike.exporter⟩

namespace Program

open RootLogger

/-- What the program does once its log is set up by its configuration. -/
def work (surroundings : Surroundings) (config : Configuration) : Stage Unit :=
  if config.runOnce then printSnapshot surroundings config else serve surroundings config

/-- The setup of logging by the environment. -/
def earlySetup (environment : List (String × String)) : LogSetup :=
  ⟨variableD environment Setting.logLevel.name Setting.logLevel.default, earlyFormat environment,
    logFields⟩

/-- The setup of logging by the configuration. -/
def lateSetup (config : Configuration) : LogSetup := ⟨config.logLevel, config.logFormat, logFields⟩

/-- A program that has done nothing but set up its log. -/
def logging (setup : LogSetup) : Execution := { Execution.start with root := setup.root }

variable {surroundings : Surroundings} {reading : ConfigMapReading} {config : Configuration}
  {fault : Fault}

private theorem setupLogging_takes (level : String) (format : LogFormat) (execution : Execution) :
    let setup : LogSetup := ⟨level, format, logFields⟩
    setupLogging level format execution =
      match refusal? setup.name with
      | some fault => (.error (.fault fault), execution)
      | none => (.ok (), { execution with root := setup.root }) := by
  intro setup
  have made : execution.root.setup level format logFields = _ := setup_eq execution.root setup
  rw [setupLogging_ends, made]
  cases refusal? setup.name <;> rfl

/-- Once it is configured, the program does its work with the log of its configuration, or ends. -/
theorem proceed_eq (surroundings : Surroundings) (config : Configuration) (execution : Execution) :
    proceed surroundings config execution =
      match refusal? (lateSetup config).name with
      | some fault => (.error (.fault fault), execution)
      | none => work surroundings config { execution with root := (lateSetup config).root } := by
  have taken := setupLogging_takes config.logLevel config.logFormat execution
  change (setupLogging _ _ >>= fun _ => work surroundings config) execution = _
  rw [lateSetup]
  cases refused : refusal? (LogSetup.name ⟨config.logLevel, config.logFormat, logFields⟩) with
  | none =>
      simp only [refused] at taken
      exact Act.bind_of_ok taken _
  | some fault =>
      simp only [refused] at taken
      exact Act.bind_of_error taken _

private theorem run_of_refused_early
    (refused : refusal? (earlySetup surroundings.environment).name = some fault) :
    run surroundings .start = (.error (.fault fault), .start) := by
  have none : earlyRoot surroundings.environment = _ :=
    setup_eq .unset (earlySetup surroundings.environment)
  rw [run_start, none, refused]

/-- The program goes on after its first setup when that is not refused and it is configured. -/
theorem run_of_configured (taken : refusal? (earlySetup surroundings.environment).name = none)
    (configured : (configure surroundings).Passes (logging (earlySetup surroundings.environment))
      (.ok config)) :
    ∃ execution, (logging (earlySetup surroundings.environment)).Alike execution ∧
      run surroundings .start = proceed surroundings config execution := by
  have early : earlyRoot surroundings.environment = _ :=
    setup_eq .unset (earlySetup surroundings.environment)
  rw [taken] at early
  obtain ⟨ends, alike⟩ := configured
  rcases reached : configure surroundings (logging (earlySetup surroundings.environment)) with
    ⟨ended, later⟩
  rw [reached] at ends alike
  subst ends
  refine ⟨later, alike, ?_⟩
  rw [run_start, early]
  exact Act.bind_of_ok reached _

/-- A program whose settings can be read is configured, whatever the text for the level of its log. -/
theorem configure_of_readable (answered : reading.answer = some surroundings.configMap)
    (readable : ∀ setting ∈ Setting.validated,
      setting.Readable (setting.textFrom surroundings.environment reading.found)) :
    ∃ config,
      (∀ session, ((loader surroundings.environment).load
        ⟨surroundings.environment, some surroundings.configMap⟩ session).1 =
          .ok (config, (loader surroundings.environment).holding config)) ∧
      config.logLevel = String.ofList (Text.upper (Text.trim
        (Setting.logLevel.textFrom surroundings.environment reading.found).toList)) ∧
      ∀ execution, (configure surroundings).Passes execution (.ok config) := by
  obtain ⟨config, read⟩ := Configuration.exists_ofRaw readable
  have returned : ∀ (kind : Session → Prop) [SessionKind kind], ((loader surroundings.environment).load
      ⟨surroundings.environment, some surroundings.configMap⟩).Returns kind
        (.ok (config, (loader surroundings.environment).holding config)) := by
    intro kind _
    have loaded := (loader surroundings.environment).load_returns kind surroundings.environment reading
    rw [read, answered] at loaded
    exact loaded
  refine ⟨config, (returned anySession).comes, ?_, fun execution => configure_passes (returned _)⟩
  exact Configuration.ofRaw_eq_ok_iff.mp read .logLevel

/-- **The program takes any level for its log but the name of a standard format.** A setup makes the root
logger that it is asked for, with one handler and with the standard level of the name for both, or INFO if
there is none, unless the name is one that is refused; after any setups the root logger is that of the last
one that was not. A configuration is accepted whatever the level of its log, which is its text without blanks
around it and in capitals. The program comes to its work with the root logger of that level if neither this
name nor that in its environment is refused. Otherwise it ends of the refusal, before it does anything if it
is the name in the environment, and with nothing done but the load if it is that in the configuration. -/
theorem run_takes_level (root : RootLogger) (earlier : List LogSetup) (setup : LogSetup) :
    (root.after earlier = ((earlier.filter fun other =>
        refusal? other.name = none).getLast?.map LogSetup.root).getD root ∧
      (root.after earlier).setup setup.level setup.format setup.extra =
        match refusal? setup.name with
        | some fault => .error fault
        | none => .ok setup.root) ∧
    ∀ (surroundings : Surroundings) (reading : ConfigMapReading),
      reading.answer = some surroundings.configMap →
      (∀ setting ∈ Setting.validated,
        setting.Readable (setting.textFrom surroundings.environment reading.found)) →
      let early := earlySetup surroundings.environment
      ∃ config,
        (∀ session, ∃ later, ((loader surroundings.environment).load
          ⟨surroundings.environment, some surroundings.configMap⟩ session).1 = .ok (config, later)) ∧
        (lateSetup config).name = String.ofList (Text.upper (Text.trim
          (Setting.logLevel.textFrom surroundings.environment reading.found).toList)) ∧
        (refusal? early.name = none → refusal? (lateSetup config).name = none →
          ∃ execution, (logging (lateSetup config)).Alike execution ∧
            run surroundings .start = work surroundings config execution) ∧
        (∀ fault, refusal? early.name = some fault →
          run surroundings .start = (.error (.fault fault), .start)) ∧
        ∀ fault, refusal? early.name = none → refusal? (lateSetup config).name = some fault →
          (run surroundings .start).1 = .error (.fault fault) ∧
            (logging early).Alike (run surroundings .start).2 := by
  refine ⟨⟨after_eq root earlier, setup_eq _ setup⟩, ?_⟩
  intro surroundings reading answered readable early
  obtain ⟨config, loaded, level, configured⟩ := configure_of_readable answered readable
  refine ⟨config, fun session => ⟨_, loaded session⟩, ?_, ?_, ?_, ?_⟩
  · -- The level of a configuration is in capitals already, and a setup leaves it as it is.
    rw [LogSetup.name, lateSetup, level]
    exact Setting.capitals_upper _
  · intro takenEarly takenLate
    obtain ⟨execution, alike, ran⟩ := run_of_configured takenEarly (configured _)
    rw [proceed_eq, takenLate] at ran
    exact ⟨_, alike.withRoot (lateSetup config).root, ran⟩
  · exact fun fault => run_of_refused_early
  · intro fault takenEarly refused
    obtain ⟨execution, alike, ran⟩ := run_of_configured takenEarly (configured _)
    rw [proceed_eq, refused] at ran
    rw [ran]
    exact ⟨rfl, alike⟩

end Program

/-! ### Two levels for one program -/

namespace Startup

/-- The ConfigMap sets the level of the log and nothing else. -/
def reading (late : String) : ConfigMapReading := .entries [("log_level", late)]

/-- A program that runs once on a cluster without nodes, with a level in its environment and another one in
its ConfigMap. -/
def surroundings (early late : String) : Surroundings :=
  ⟨0, [("RUN_ONCE", "true"), ("LOG_LEVEL", early)], .ok (some [("log_level", some late)]), [.empty], []⟩

private theorem answered (early late : String) :
    (reading late).answer = some (surroundings early late).configMap := rfl

private theorem readable (early late : String) : ∀ setting ∈ Setting.validated,
    setting.Readable (setting.textFrom (surroundings early late).environment (reading late).found) := by
  intro setting member
  have apart : ∀ setting ∈ Setting.validated, Setting.capitals "log_level" ≠ setting.name ∧
      setting.name ≠ "RUN_ONCE" ∧ setting.name ≠ "LOG_LEVEL" := by
    decide +kernel
  obtain ⟨unnamed, once, level⟩ := apart setting member
  have unset : (surroundings early late).environment.lookup setting.name = none := by
    rw [List.lookup_eq_none_iff]
    simp only [surroundings, List.forall_mem_cons, bne_iff_ne]
    exact ⟨once, level, List.forall_mem_nil _⟩
  have standard : setting.textFrom (surroundings early late).environment (reading late).found =
      setting.default := by
    rw [Setting.textFrom, unset, reading, ConfigMapReading.found, Setting.given_cons, if_neg unnamed]
    rfl
  rw [standard]
  exact setting.readable_default

/-- One setup that is taken and one that is not. -/
def setups : List LogSetup := [⟨"debug", .json, []⟩, ⟨"_styles", .text, []⟩]

end Startup

namespace Program

open Startup RootLogger

/-- Levels that are taken, one that stands for information, and two that end the run. -/
theorem run_takes_level_warn :
    (unset.after setups).level = 10 ∧
    (unset.after setups).setup "chatty" .text [] = .ok ⟨20, [⟨20, .text, []⟩]⟩ ∧
    (∀ early late, (reading late).answer = some (surroundings early late).configMap ∧
      ∀ setting ∈ Setting.validated, setting.Readable
        (setting.textFrom (surroundings early late).environment (reading late).found)) ∧
    (∃ config execution, (lateSetup config).root = ⟨30, [⟨30, config.logFormat, logFields⟩]⟩ ∧
      (logging (lateSetup config)).Alike execution ∧
      run (surroundings "chatty" " Warn ") .start =
        work (surroundings "chatty" " Warn ") config execution) ∧
    run (surroundings "Basic_Format" "info") .start =
      (.error (.fault (.unknownLevel standardFormat.2)), .start) ∧
    (run (surroundings "info" " _Styles ") .start).1 =
      .error (.fault (.levelOfOtherType standardStyles.2)) := by
  obtain ⟨⟨last, next⟩, started⟩ := run_takes_level unset setups ⟨"chatty", .text, []⟩
  obtain ⟨warnConfig, -, warnLevel, starts, -⟩ :=
    started _ _ (answered "chatty" " Warn ") (readable "chatty" " Warn ")
  obtain ⟨-, -, -, -, endsEarly, -⟩ :=
    started _ _ (answered "Basic_Format" "info") (readable "Basic_Format" "info")
  obtain ⟨stylesConfig, -, stylesLevel, -, -, endsLate⟩ :=
    started _ _ (answered "info" " _Styles ") (readable "info" " _Styles ")
  have chatty : LogSetup.name ⟨"chatty", .text, []⟩ = "CHATTY" := by decide +kernel
  have warn : (lateSetup warnConfig).name = "WARN" := by
    rw [warnLevel]
    decide +kernel
  have styles : (lateSetup stylesConfig).name = "_STYLES" := by
    rw [stylesLevel]
    decide +kernel
  obtain ⟨execution, alike, ran⟩ := starts (by decide +kernel) (by rw [warn]; decide)
  refine ⟨?_, ?_, fun early late => ⟨answered early late, readable early late⟩,
    ⟨warnConfig, execution, ?_, alike, ran⟩, endsEarly _ (by decide +kernel),
    (endsLate _ (by decide +kernel) (by rw [styles]; decide +kernel)).1⟩
  · rw [last]
    decide +kernel
  · rw [next, LogSetup.root, chatty]
    rfl
  · rw [LogSetup.root, warn]
    rfl

/-- The name of a format is accepted as the level of a log. All the same no setup takes it, and the program
ends. -/
theorem formatName_ends_run :
    (∃ config later, ((loader (surroundings "info" "basic_format").environment).load
      ⟨(surroundings "info" "basic_format").environment,
        some (surroundings "info" "basic_format").configMap⟩ (.start 0 none)).1 = .ok (config, later) ∧
      config.logLevel = "BASIC_FORMAT") ∧
    (∀ (format : LogFormat) (extra : List (String × Json)) (root : RootLogger),
      root.setup "BASIC_FORMAT" format extra = .error (.unknownLevel standardFormat.2)) ∧
    (run (surroundings "info" "basic_format") .start).1 =
      .error (.fault (.unknownLevel standardFormat.2)) ∧
    ¬ ∀ (level : String) (format : LogFormat) (extra : List (String × Json)) (root : RootLogger),
      ∃ later, root.setup level format extra = .ok later := by
  obtain ⟨config, loaded, level, configured⟩ :=
    configure_of_readable (answered "info" "basic_format") (readable "info" "basic_format")
  have named : config.logLevel = "BASIC_FORMAT" := by
    rw [level]
    decide +kernel
  have refused : refusal? (Setting.capitals "BASIC_FORMAT") = some (.unknownLevel standardFormat.2) := by
    decide +kernel
  have fails : ∀ (format : LogFormat) (extra : List (String × Json)) (root : RootLogger),
      root.setup "BASIC_FORMAT" format extra = .error (.unknownLevel standardFormat.2) := by
    intro format extra root
    rw [setup_eq root ⟨"BASIC_FORMAT", format, extra⟩, LogSetup.name, refused]
  refine ⟨⟨config, _, loaded _, named⟩, fails, ?_, fun taken => ?_⟩
  · obtain ⟨execution, -, ran⟩ := run_of_configured (by decide +kernel) (configured _)
    rw [ran, proceed_eq, LogSetup.name, lateSetup, named, refused]
  · obtain ⟨later, made⟩ := taken "BASIC_FORMAT" .json [] unset
    rw [fails] at made
    cases made

end Program

end SpotCapacity
