import SpotCapacity.Proofs.Snapshot

/-!
# A ConfigMap that cannot be read

The request for the ConfigMap may be refused, whatever the status of the refusal; then a load comes to what
it comes to without a client (`Loader.load_of_refused`), and the program goes on as if the ConfigMap were
empty: what was logged before a stage has no say in it (`Stage.Uniform`). A request that is lost on its way is
another matter. Its failure is passed on by the load (`Loader.load_of_lost`), and nothing handles it, so that
the program ends (`Program.run_outage`).
-/

namespace SpotCapacity

/-- Whether a failure is the answer of the API, one that refuses the call with an HTTP status. -/
def ApiFailure.isRefusal : ApiFailure → Bool
  | .refused .. => true
  | _ => false

/-! ### Loads -/

namespace Session

/-- The sessions that differ from a session in their trace only. -/
def UpToTrace (base session : Session) : Prop := session.cleared = base.cleared

instance (base : Session) : SessionKind base.UpToTrace := ⟨fun _ same => same⟩

end Session

namespace Loader

open Act

variable {kind : Session → Prop} [SessionKind kind] {failure : ApiFailure}

/-- What a load comes to by the environment and the defaults alone. -/
def fromEnvironment (loader : Loader) (environment : List (String × String)) :
    Except Fault (Configuration × Loader) :=
  (Configuration.ofRaw fun setting =>
    some ((environment.lookup setting.name).getD setting.default)).map fun config =>
      (config, loader.holding config)

/-- A load that finds nothing in a ConfigMap takes the environment and the defaults. -/
theorem load_of_found_nil (loader : Loader) (environment : List (String × String))
    (reading : ConfigMapReading) (nothing : reading.found = []) :
    (loader.load ⟨environment, reading.answer⟩).Returns kind (loader.fromEnvironment environment) := by
  have returned := loader.load_returns kind environment reading
  rw [nothing] at returned
  exact returned

/-- A refused request is of no effect on what a load comes to. -/
theorem load_of_refused (loader : Loader) (environment : List (String × String))
    (refused : failure.isRefusal = true) :
    (loader.load ⟨environment, some (.error failure)⟩).Returns kind
      (loader.fromEnvironment environment) := by
  cases failure with
  | refused status reason body =>
      exact loader.load_of_found_nil environment (.refused status reason body) rfl
  | transport | retries | foreign => cases refused

/-- A request that fails in another way has the load fail. -/
theorem load_of_lost (loader : Loader) (environment : List (String × String))
    (lost : failure.isRefusal = false) :
    (loader.load ⟨environment, some (.error failure)⟩).Returns kind (.error (.api failure)) := by
  have thrown : (loader.readConfigMap ⟨environment, some (.error failure)⟩).Returns kind
      (.error (.api failure)) := by
    refine (returns_note _).bind_ok ?_
    cases failure with
    | refused => cases lost
    | transport | retries | foreign => exact returns_throw _
  refine (returns_log _ _ _).bind_ok ?_
  exact thrown.bind_error _

/-- What the environment is refused for is invalid configuration. -/
theorem fromEnvironment_error {loader : Loader} {environment : List (String × String)} {fault : Fault}
    (failed : loader.fromEnvironment environment = .error fault) : fault.kind = .config := by
  have returned : (loader.load ⟨environment, ConfigMapReading.noClient.answer⟩).Returns anySession
      (loader.fromEnvironment environment) := loader.load_of_found_nil environment .noClient rfl
  have same := returned.comes (.start 0 none)
  rw [failed] at same
  obtain ⟨_, setting, _, -, -, refused⟩ := load_eq_error_iff.mp same
  obtain ⟨reason, rfl, -⟩ := Setting.check_error refused
  rfl

end Loader

/-! ### Stages and what was logged before them -/

namespace Execution

/-- Executions that differ in nothing but their traces and their log lines. -/
structure Alike (execution other : Execution) : Prop where
  root : other.root = execution.root
  session : other.session.cleared = execution.session.cleared
  snapshots : other.snapshots = execution.snapshots
  handled : other.handled = execution.handled
  exporter : other.exporter = execution.exporter

namespace Alike

variable {execution other third : Execution}

theorem refl (execution : Execution) : execution.Alike execution := ⟨rfl, rfl, rfl, rfl, rfl⟩

theorem symm (alike : execution.Alike other) : other.Alike execution :=
  ⟨alike.root.symm, alike.session.symm, alike.snapshots.symm, alike.handled.symm,
    alike.exporter.symm⟩

theorem trans (first : execution.Alike other) (second : other.Alike third) :
    execution.Alike third :=
  ⟨second.root.trans first.root, second.session.trans first.session,
    second.snapshots.trans first.snapshots, second.handled.trans first.handled,
    second.exporter.trans first.exporter⟩

end Alike

end Execution

namespace Stage

variable {α β : Type}

/-- A stage that goes on alike from executions that are alike. -/
def Uniform (stage : Stage α) : Prop :=
  ∀ execution other, execution.Alike other →
    (stage other).1 = (stage execution).1 ∧ (stage execution).2.Alike (stage other).2

private theorem uniform_pure (value : α) : (pure value : Stage α).Uniform :=
  fun _ _ alike => ⟨rfl, alike⟩

private theorem uniform_throw (ending : Ending) : (throw ending : Stage α).Uniform :=
  fun _ _ alike => ⟨rfl, alike⟩

private theorem uniform_ofExcept (result : Except Fault α) : (Stage.ofExcept result).Uniform := by
  cases result with
  | error fault => exact uniform_throw _
  | ok value => exact uniform_pure value

private theorem uniform_modify {f : Execution → Execution}
    (keeps : ∀ execution other : Execution, execution.Alike other → (f execution).Alike (f other)) :
    (modify f : Stage Unit).Uniform :=
  fun execution other alike => ⟨rfl, keeps execution other alike⟩

/-- What is uniform goes on alike after two stages that end in the same way and alike. -/
theorem Uniform.follow {first second : Stage α} {next : α → Stage β}
    (uniform : ∀ value, (next value).Uniform) {execution other : Execution}
    (same : (second other).1 = (first execution).1)
    (alike : (first execution).2.Alike (second other).2) :
    ((second >>= next) other).1 = ((first >>= next) execution).1 ∧
      ((first >>= next) execution).2.Alike ((second >>= next) other).2 := by
  rcases here : first execution with ⟨result, later⟩
  rcases there : second other with ⟨otherResult, otherLater⟩
  rw [here, there] at same alike
  subst same
  cases otherResult with
  | error ending =>
      rw [Act.bind_of_error here, Act.bind_of_error there]
      exact ⟨rfl, alike⟩
  | ok value =>
      rw [Act.bind_of_ok here, Act.bind_of_ok there]
      exact uniform value later otherLater alike

/-- Stages in turn are uniform if all of them are. -/
theorem Uniform.bind {stage : Stage α} {next : α → Stage β} (first : stage.Uniform)
    (second : ∀ value, (next value).Uniform) : (stage >>= next).Uniform := by
  intro execution other alike
  obtain ⟨same, still⟩ := first execution other alike
  exact Uniform.follow second same still

/-- Work of the program begins with an empty trace. -/
theorem uniform_perform (time : Int) (work : StateM Session α) : (perform time work).Uniform := by
  intro execution other alike
  have same : work other.session.cleared = work execution.session.cleared := by rw [alike.session]
  have result : (perform time work other).1 = (perform time work execution).1 :=
    congrArg (fun worked : α × Session => Except.ok worked.1) same
  have session : (perform time work other).2.session.cleared =
      (perform time work execution).2.session.cleared :=
    congrArg (fun worked : α × Session => worked.2.cleared) same
  have snapshots : (perform time work other).2.snapshots =
      (perform time work execution).2.snapshots :=
    (other.snapshots_lines _).trans (alike.snapshots.trans (execution.snapshots_lines _).symm)
  exact ⟨result, alike.root, session, snapshots, alike.handled, alike.exporter⟩

private theorem uniform_abort (time : Int) (message : String) : (abort time message : Stage α).Uniform :=
  (uniform_perform time _).bind fun _ => uniform_throw _

private theorem uniform_limitCalls (maxCalls : Int) (reports : Bool) :
    (limitCalls maxCalls reports).Uniform := by
  apply uniform_modify
  intro execution other alike
  have session := congrArg (fun session : Session =>
    { session with limiter := some (Limiter.new maxCalls (.span (.finite 1)) reports) }) alike.session
  exact ⟨alike.root, session, alike.snapshots, alike.handled, alike.exporter⟩

/-- A stage ends in a way and leaves an execution that is alike. -/
structure Passes (stage : Stage α) (execution : Execution) (result : Except Ending α) : Prop where
  ends : (stage execution).1 = result
  alike : execution.Alike (stage execution).2

variable {execution : Execution}

private theorem passes_throw (ending : Ending) : (throw ending : Stage α).Passes execution (.error ending) :=
  ⟨rfl, .refl execution⟩

private theorem passes_pure (value : α) : (pure value : Stage α).Passes execution (.ok value) :=
  ⟨rfl, .refl execution⟩

/-- A stage that comes to a value passes on to the next one. -/
theorem Passes.after {stage : Stage α} {next : α → Stage β} {value : α} {result : Except Ending β}
    (first : stage.Passes execution (.ok value))
    (second : (next value).Passes (stage execution).2 result) :
    (stage >>= next).Passes execution result := by
  obtain ⟨ends, alike⟩ := first
  rcases reached : stage execution with ⟨ended, later⟩
  rw [reached] at ends alike second
  subst ends
  have goesOn : (stage >>= next) execution = next value later := Act.bind_of_ok reached next
  constructor
  · rw [goesOn]
    exact second.ends
  · rw [goesOn]
    exact alike.trans second.alike

/-- Work that changes nothing but the trace. -/
theorem passes_perform (time : Int) {work : StateM Session α} {value : α}
    (came : (work execution.session.cleared).1 = value)
    (kept : execution.session.UpToTrace (work execution.session.cleared).2) :
    (perform time work).Passes execution (.ok value) := by
  constructor
  · exact congrArg Except.ok came
  · exact ⟨rfl, kept, execution.snapshots_lines _, rfl, rfl⟩

private theorem passes_abort (time : Int) (message : String) :
    (abort time message : Stage α).Passes execution (.error (.exit 1)) := by
  have logged : (perform time (modify (·.log .error .monitor message))).Passes execution (.ok ()) :=
    passes_perform time rfl rfl
  exact logged.after (passes_throw _)

end Stage

/-! ### The way of the program -/

/-- The same surroundings, but for a ConfigMap that has no entries. -/
def Surroundings.unset (surroundings : Surroundings) : Surroundings :=
  { surroundings with configMap := .ok none }

namespace Program

open Stage

variable {surroundings : Surroundings} {execution : Execution}

private theorem uniform_setupLogging (level : String) (format : LogFormat) :
    (setupLogging level format).Uniform := by
  intro execution other alike
  rw [setupLogging_ends, setupLogging_ends, alike.root]
  cases execution.root.setup level format logFields with
  | error fault => exact ⟨rfl, alike⟩
  | ok root => exact ⟨rfl, rfl, alike.session, alike.snapshots, alike.handled, alike.exporter⟩

private theorem uniform_conclude (time : Int) (built : Except Fault NodeMap) :
    (conclude time built).Uniform := by
  cases built with
  | error fault =>
      rw [conclude]
      split
      · exact uniform_abort time _
      · exact uniform_throw _
  | ok map =>
      have shown : ∀ value : Json, (modify fun execution : Execution =>
          { execution with written := execution.written ++ [Output.snapshot value] } :
            Stage Unit).Uniform := by
        intro value
        apply uniform_modify
        intro execution other alike
        have snapshots := execution.snapshots_snapshot value
        rw [← alike.snapshots, ← other.snapshots_snapshot value] at snapshots
        exact ⟨alike.root, alike.session, snapshots.symm, alike.handled, alike.exporter⟩
      refine (uniform_ofExcept _).bind fun value => ?_
      split
      · exact (uniform_throw _).bind fun _ => shown value
      · exact shown value

private theorem uniform_printSnapshot (surroundings : Surroundings) (config : Configuration) :
    (printSnapshot surroundings config).Uniform := by
  rw [printSnapshot_eq]
  refine (uniform_limitCalls _ _).bind fun _ => ?_
  exact (uniform_perform _ _).bind fun built => uniform_conclude surroundings.time built

private theorem uniform_serve (surroundings : Surroundings) (config : Configuration) :
    (serve surroundings config).Uniform := by
  refine (uniform_limitCalls _ _).bind fun _ => ?_
  have handles : (modify fun execution : Execution =>
      { execution with handled := [.terminate, .interrupt] } : Stage Unit).Uniform :=
    uniform_modify fun _ _ alike => ⟨alike.root, alike.session, alike.snapshots, rfl, alike.exporter⟩
  refine handles.bind fun _ => (uniform_perform _ _).bind fun exporter => ?_
  refine (uniform_perform _ _).bind fun ran => ?_
  have keeps : (modify fun execution : Execution =>
      { execution with exporter := ran.2.exporter } : Stage Unit).Uniform :=
    uniform_modify fun _ _ alike => ⟨alike.root, alike.session, alike.snapshots, alike.handled, rfl⟩
  exact keeps.bind fun _ => uniform_ofExcept ran.1

/-- The root logger by the environment, with which the program begins. -/
def earlyRoot (environment : List (String × String)) : Except Fault RootLogger :=
  RootLogger.unset.setup (variableD environment Setting.logLevel.name Setting.logLevel.default)
    (earlyFormat environment) logFields

/-- The way of the program from its configuration on. -/
def proceed (surroundings : Surroundings) (config : Configuration) : Stage Unit := do
  setupLogging config.logLevel config.logFormat
  if config.runOnce then printSnapshot surroundings config else serve surroundings config

/-- The program begins with the root logger by its environment, or ends where there is none. -/
theorem run_start (surroundings : Surroundings) :
    run surroundings .start =
      match earlyRoot surroundings.environment with
      | .ok root =>
        (configure surroundings >>= proceed surroundings) { Execution.start with root := root }
      | .error fault => (.error (.fault fault), .start) := by
  have early := setupLogging_ends
    (variableD surroundings.environment Setting.logLevel.name Setting.logLevel.default)
    (earlyFormat surroundings.environment) .start
  change _ = (match earlyRoot surroundings.environment with | .ok _ => _ | .error _ => _) at early
  change (setupLogging _ _ >>= fun _ => configure surroundings >>= proceed surroundings) .start = _
  cases outcome : earlyRoot surroundings.environment with
  | ok root =>
      rw [outcome] at early
      exact Act.bind_of_ok early _
  | error fault =>
      rw [outcome] at early
      exact Act.bind_of_error early _

/-- All that comes after the configuration is uniform. -/
theorem uniform_proceed (surroundings : Surroundings) (config : Configuration) :
    (proceed surroundings config).Uniform := by
  refine (uniform_setupLogging _ _).bind fun _ => ?_
  split
  · exact uniform_printSnapshot surroundings config
  · exact uniform_serve surroundings config

/-- How the program goes on after a load. -/
def accepted : Except Fault (Configuration × Loader) → Except Ending Configuration
  | .ok (config, _) => .ok config
  | .error fault => .error (if fault.kind.isConfig then .exit 1 else .fault fault)

/-- The program takes the configuration that a load comes to, or ends. -/
theorem configure_passes {result : Except Fault (Configuration × Loader)}
    (returned : ((loader surroundings.environment).load
      ⟨surroundings.environment, some surroundings.configMap⟩).Returns execution.session.UpToTrace
        result) :
    (configure surroundings).Passes execution (accepted result) := by
  obtain ⟨came, kept⟩ := returned execution.session.cleared rfl
  unfold configure
  apply (passes_perform surroundings.time came kept).after
  cases result with
  | ok loaded => exact passes_pure loaded.1
  | error fault =>
      rw [accepted]
      dsimp only
      split
      · exact passes_abort _ _
      · exact passes_throw _

variable {failure : ApiFailure}

/-- The environment is accepted as a configuration, or the program exits. -/
theorem accepted_fromEnvironment (loader : Loader) (environment : List (String × String))
    (fault : Fault) : accepted (loader.fromEnvironment environment) ≠ .error (.fault fault) := by
  rcases outcome : loader.fromEnvironment environment with reason | ⟨config, later⟩
  · have config : reason.kind.isConfig = true := by
      rw [Loader.fromEnvironment_error outcome]
      rfl
    rw [accepted, if_pos config]
    exact nofun
  · exact nofun

private theorem configure_of_refused (failed : surroundings.configMap = .error failure)
    (refused : failure.isRefusal = true) :
    (configure surroundings).Passes execution
      (accepted ((loader surroundings.environment).fromEnvironment surroundings.environment)) := by
  apply configure_passes
  rw [failed]
  exact Loader.load_of_refused _ _ refused

private theorem configure_unset :
    (configure surroundings.unset).Passes execution
      (accepted ((loader surroundings.environment).fromEnvironment surroundings.environment)) :=
  configure_passes (Loader.load_of_found_nil _ _ .noData rfl)

/-- A program whose request is refused runs as one whose ConfigMap has no entries. -/
theorem run_of_refused (failed : surroundings.configMap = .error failure)
    (refused : failure.isRefusal = true) :
    (run surroundings .start).1 = (run surroundings.unset .start).1 ∧
      (run surroundings.unset .start).2.Alike (run surroundings .start).2 := by
  -- Of the surroundings, only the request for the ConfigMap looks at the ConfigMap.
  have same : earlyRoot surroundings.unset.environment = earlyRoot surroundings.environment := rfl
  rw [run_start, run_start, same]
  cases earlyRoot surroundings.environment with
  | error fault => exact ⟨rfl, .refl _⟩
  | ok root =>
      have unread : (configure surroundings.unset).Passes { Execution.start with root := root }
          (accepted ((loader surroundings.environment).fromEnvironment surroundings.environment)) :=
        configure_unset
      have refusal : (configure surroundings).Passes { Execution.start with root := root }
          (accepted ((loader surroundings.environment).fromEnvironment surroundings.environment)) :=
        configure_of_refused failed refused
      exact Uniform.follow (uniform_proceed surroundings) (refusal.ends.trans unread.ends.symm)
        (unread.alike.symm.trans refusal.alike)

private theorem configure_of_lost (failed : surroundings.configMap = .error failure)
    (lost : failure.isRefusal = false) (reported : failure.isReported = true) :
    (configure surroundings).Passes execution (.error (.fault (.api failure))) := by
  have returned : ((loader surroundings.environment).load
      ⟨surroundings.environment, some surroundings.configMap⟩).Returns execution.session.UpToTrace
        (.error (.api failure)) := by
    rw [failed]
    exact Loader.load_of_lost _ _ lost
  have passes := configure_passes returned
  cases failure with
  | refused => cases lost
  | foreign => cases reported
  | transport | retries => exact passes

/-- A program whose request is lost ends of it as soon as logging is set up. -/
theorem run_of_lost (failed : surroundings.configMap = .error failure)
    (lost : failure.isRefusal = false) (reported : failure.isReported = true) {root : RootLogger}
    (early : earlyRoot surroundings.environment = .ok root) :
    (run surroundings .start).1 = .error (.fault (.api failure)) ∧
      { Execution.start with root := root }.Alike (run surroundings .start).2 := by
  have passes : (configure surroundings).Passes { Execution.start with root := root }
      (.error (.fault (.api failure))) := configure_of_lost failed lost reported
  obtain ⟨ends, alike⟩ := passes
  rw [run_start, early]
  rcases reached : configure surroundings { Execution.start with root := root } with ⟨ended, later⟩
  rw [reached] at ends alike
  subst ends
  dsimp only
  rw [Act.bind_of_error reached]
  exact ⟨rfl, alike⟩

/-- **A refused request for the ConfigMap is harmless, a lost one is fatal.** When the API refuses the
request, whatever its status, a load comes to what it comes to without a client: the configuration of the
environment and the defaults, or the fault that these are refused for. The program takes that configuration
or exits, never by the failure, and runs as if the ConfigMap had no entries. When the request fails in
another way, a load fails with it whatever the environment, and where the failure is one that the API client
reports, so does the program: nothing is printed, handled or served. -/
theorem run_outage (surroundings : Surroundings) (failure : ApiFailure)
    (failed : surroundings.configMap = .error failure) :
    (failure.isRefusal = true →
      (∀ (loader : Loader) (session : Session),
        (loader.load ⟨surroundings.environment, some (.error failure)⟩ session).1 =
          (loader.load ⟨surroundings.environment, none⟩ session).1 ∧
        (loader.load ⟨surroundings.environment, none⟩ session).1 =
          loader.fromEnvironment surroundings.environment ∧
        ∀ fault, loader.fromEnvironment surroundings.environment = .error fault →
          fault.kind = .config) ∧
      (∀ (execution : Execution) (fault : Fault),
        (configure surroundings execution).1 ≠ .error (.fault fault)) ∧
      (run surroundings .start).1 = (run surroundings.unset .start).1 ∧
      (run surroundings.unset .start).2.Alike (run surroundings .start).2) ∧
    (failure.isRefusal = false →
      (∀ (loader : Loader) (session : Session),
        (loader.load ⟨surroundings.environment, some (.error failure)⟩ session).1 =
          .error (.api failure)) ∧
      (failure.isReported = true → ∀ root, earlyRoot surroundings.environment = .ok root →
        (run surroundings .start).1 = .error (.fault (.api failure)) ∧
        { Execution.start with root := root }.Alike (run surroundings .start).2)) := by
  constructor
  · intro refused
    refine ⟨fun loader session => ?_, fun execution fault => ?_, run_of_refused failed refused⟩
    · have one : (loader.load ⟨surroundings.environment, some (.error failure)⟩).Returns anySession
          (loader.fromEnvironment surroundings.environment) := loader.load_of_refused _ refused
      have two : (loader.load ⟨surroundings.environment, none⟩).Returns anySession
          (loader.fromEnvironment surroundings.environment) :=
        loader.load_of_found_nil _ .noClient rfl
      exact ⟨(one.comes session).trans (two.comes session).symm, two.comes session,
        fun _ => Loader.fromEnvironment_error⟩
    · rw [(configure_of_refused failed refused).ends]
      exact accepted_fromEnvironment _ _ fault
  · intro lost
    refine ⟨fun loader session => ?_, fun reported root early => run_of_lost failed lost reported early⟩
    have fails : (loader.load ⟨surroundings.environment, some (.error failure)⟩).Returns anySession
        (.error (.api failure)) := loader.load_of_lost _ lost
    exact fails.comes session

end Program

/-! ### Two answers to one program -/

namespace Outage

/-- A program that runs once, with a threshold of its own. -/
def surroundings (failure : ApiFailure) : Surroundings :=
  ⟨0, [("PRIORITY_THRESHOLD", "3"), ("RUN_ONCE", "true")], .error failure, [], []⟩

/-- The API lets nobody read the ConfigMap. -/
def forbidden : ApiFailure := .refused (some 403) (some "Forbidden") none

/-- The connection breaks while the ConfigMap is read. -/
def broken : ApiFailure := .transport .protocol "Connection aborted."

/-- The loader of the ConfigMap in its usual place. -/
def usualLoader : Loader := .new Loader.standardSpace Loader.standardConfigMap

private theorem exists_earlyRoot :
    ∃ root, Program.earlyRoot (surroundings broken).environment = .ok root := by
  have named : RootLogger.NamesLevel (Program.variableD (surroundings broken).environment
      Setting.logLevel.name Setting.logLevel.default) := by decide
  exact named.setup _ _ _

end Outage

namespace Program

open Outage

/-- The refusal leaves the run as it is, the broken connection ends it. -/
theorem run_outage_forbidden_broken :
    (surroundings forbidden).configMap = .error forbidden ∧
    (run (surroundings forbidden) .start).1 = (run (surroundings forbidden).unset .start).1 ∧
    (run (surroundings broken) .start).1 = .error (.fault (.api broken)) := by
  obtain ⟨root, set⟩ := exists_earlyRoot
  have refused := (run_outage (surroundings forbidden) forbidden rfl).1 rfl
  have lost := (run_outage (surroundings broken) broken rfl).2 rfl
  exact ⟨rfl, refused.2.2.1, (lost.2 rfl root set).1⟩

/-- A broken connection is reported as a failed call. All the same a load fails of it that comes to a
configuration without a client, and the program ends. -/
theorem broken_ends_run :
    broken.isReported = true ∧
    (∃ config later, (usualLoader.load ⟨(surroundings broken).environment, none⟩ (.start 0 none)).1 =
      .ok (config, later) ∧ config.priorityThreshold = 3) ∧
    (usualLoader.load ⟨(surroundings broken).environment, some (.error broken)⟩ (.start 0 none)).1 =
      .error (.api broken) ∧
    (run (surroundings broken) .start).1 = .error (.fault (.api broken)) ∧
    ¬ ∀ (environment : List (String × String)) (failure : ApiFailure), failure.isReported = true →
      ∀ (loader : Loader) (session : Session),
        (loader.load ⟨environment, some (.error failure)⟩ session).1 =
          (loader.load ⟨environment, none⟩ session).1 := by
  have alone : (usualLoader.load ⟨(surroundings broken).environment, none⟩).Returns anySession
      (usualLoader.fromEnvironment (surroundings broken).environment) :=
    usualLoader.load_of_found_nil _ .noClient rfl
  have fails : (usualLoader.load ⟨(surroundings broken).environment, some (.error broken)⟩).Returns
      anySession (.error (.api broken)) := usualLoader.load_of_lost _ rfl
  have threshold : (usualLoader.fromEnvironment (surroundings broken).environment).toOption.map
      (·.1.priorityThreshold) = some 3 := by decide +kernel
  rcases outcome : usualLoader.fromEnvironment (surroundings broken).environment with
    fault | ⟨config, later⟩
  · rw [outcome] at threshold
    cases threshold
  · rw [outcome] at alone threshold
    obtain ⟨root, set⟩ := exists_earlyRoot
    refine ⟨rfl, ⟨config, later, alone.comes _, Option.some.inj threshold⟩, fails.comes _,
      (run_of_lost rfl rfl rfl set).1, fun same => ?_⟩
    have both := same (surroundings broken).environment broken rfl usualLoader (.start 0 none)
    rw [fails.comes, alone.comes] at both
    cases both

end Program

end SpotCapacity
