import SpotCapacity.Program
import SpotCapacity.Proofs.Monitor
import SpotCapacity.Proofs.Admission
import SpotCapacity.Proofs.Settings.Loading

/-!
# The snapshot of a single run

A program that runs once prints what the answers of its cluster come to by the two rules and the
threshold of its configuration, or it ends without printing (`Program.run_shows`). Whatever else it is
configured with, and wherever a setting came from, has no say in the snapshot: programs whose
configurations have these three in common print the same of a cluster that answers them alike
(`Program.run_snapshots`).
-/

namespace SpotCapacity

/-! ### Stages and what they print -/

namespace Execution

variable (execution : Execution)

/-- Lines that are written are no snapshots. -/
theorem snapshots_lines (text : String) :
    { execution with written := execution.written ++ [Output.lines text] }.snapshots =
      execution.snapshots := by
  simp [snapshots, List.filterMap_append]

/-- A snapshot that is written comes last. -/
theorem snapshots_snapshot (value : Json) :
    { execution with written := execution.written ++ [Output.snapshot value] }.snapshots =
      execution.snapshots ++ [value] := by
  simp [snapshots, List.filterMap_append]

end Execution

namespace Stage

variable {α β : Type} {execution : Execution}

/-- How a stage ends when it begins in an execution, and the snapshots that it prints on its way. -/
structure Shows (stage : Stage α) (execution : Execution) (result : Except Ending α)
    (shown : List Json) : Prop where
  ends : (stage execution).1 = result
  prints : (stage execution).2.snapshots = execution.snapshots ++ shown

/-- A stage goes on after a first part that prints no snapshot. -/
theorem Shows.after {stage : Stage α} {next : α → Stage β} {value : α} {result : Except Ending β}
    {shown : List Json} (first : stage.Shows execution (.ok value) [])
    (second : (next value).Shows (stage execution).2 result shown) :
    (stage >>= next).Shows execution result shown := by
  obtain ⟨ends, prints⟩ := first
  rcases reached : stage execution with ⟨ended, later⟩
  rw [reached] at ends prints second
  subst ends
  rw [List.append_nil] at prints
  have goesOn : (stage >>= next) execution = next value later := Act.bind_of_ok reached next
  constructor
  · rw [goesOn]
    exact second.ends
  · rw [goesOn, second.prints, prints]

private theorem shows_throw (ending : Ending) : (throw ending : Stage α).Shows execution (.error ending) [] :=
  ⟨rfl, (List.append_nil _).symm⟩

private theorem shows_pure (value : α) : (pure value : Stage α).Shows execution (.ok value) [] :=
  ⟨rfl, (List.append_nil _).symm⟩

/-- What is logged on the way of a work is no snapshot. -/
theorem shows_perform (time : Int) {work : StateM Session α} {value : α}
    (came : (work execution.session.cleared).1 = value) :
    (perform time work).Shows execution (.ok value) [] := by
  constructor
  · exact congrArg Except.ok came
  · rw [List.append_nil]
    exact execution.snapshots_lines _

private theorem shows_abort (time : Int) (message : String) :
    (abort time message : Stage α).Shows execution (.error (.exit 1)) [] := by
  rw [abort]
  exact (shows_perform time rfl).after (shows_throw _)

end Stage

/-! ### The stages of a single run -/

namespace RootLogger

/-- A text that names a standard level, in any case. -/
def NamesLevel (text : String) : Prop :=
  String.ofList (Text.upper text.toList) ∈ standardLevels.map (·.1)

instance (text : String) : Decidable (NamesLevel text) :=
  inferInstanceAs (Decidable (String.ofList (Text.upper text.toList) ∈ standardLevels.map (·.1)))

/-- A name of a level stands for a level. -/
theorem NamesLevel.levelOf {text : String} (named : NamesLevel text) :
    ∃ level, levelOf text = .ok level := by
  rw [RootLogger.levelOf]
  cases found : standardLevels.lookup (String.ofList (Text.upper text.toList)) with
  | some level => exact ⟨level, rfl⟩
  | none =>
      obtain ⟨entry, member, same⟩ := List.mem_map.mp named
      have other := List.lookup_eq_none_iff.mp found entry member
      exact absurd same.symm (bne_iff_ne.mp other)

/-- The name of a standard level is never refused. -/
theorem NamesLevel.setup {text : String} (named : NamesLevel text) (format : LogFormat)
    (extra : List (String × Json)) (root : RootLogger) :
    ∃ later, root.setup text format extra = .ok later := by
  obtain ⟨level, same⟩ := named.levelOf
  exact ⟨_, by rw [RootLogger.setup, same, Outcome.ok_bind]; rfl⟩

end RootLogger

namespace Surroundings

/-- The cluster at the start of the program. -/
def cluster (surroundings : Surroundings) : ClusterApi := surroundings.clusters.headD .empty

/-- What building a map of the cluster comes to. -/
def built (surroundings : Surroundings) (config : Configuration) : Except Fault NodeMap :=
  surroundings.cluster.listedNodes >>=
    NodeMap.outcome config.nodeMapConfig surroundings.cluster.listedPods

/-- The program is to run once: its environment and its ConfigMap are accepted as a configuration that
says so, and whatever sets the level of its log names a standard one. -/
structure RunsOnce (surroundings : Surroundings) (config : Configuration) : Prop where
  accepted : ∃ loader, ((Program.loader surroundings.environment).load
    ⟨surroundings.environment, some surroundings.configMap⟩ (.start 0 none)).1 = .ok (config, loader)
  once : config.runOnce = true
  environmentLevel : ∀ text, surroundings.environment.lookup Setting.logLevel.name = some text →
    RootLogger.NamesLevel text
  level : RootLogger.NamesLevel config.logLevel

namespace RunsOnce

variable {surroundings : Surroundings} {config : Configuration}

private theorem earlyLevel (once : surroundings.RunsOnce config) :
    RootLogger.NamesLevel
      (Program.variableD surroundings.environment Setting.logLevel.name Setting.logLevel.default) := by
  rw [Program.variableD]
  cases given : surroundings.environment.lookup Setting.logLevel.name with
  | none => decide
  | some text => exact once.environmentLevel text given

/-- A configuration that is accepted lets the program make calls. -/
theorem rateLimit_pos (once : surroundings.RunsOnce config) : 0 < config.rateLimit := by
  obtain ⟨loader, accepted⟩ := once.accepted
  obtain ⟨-, raw, read⟩ := Loader.load_yields _ _ _ _ accepted
  exact Configuration.rateLimit_pos read

end RunsOnce

end Surroundings

namespace Program

variable {surroundings : Surroundings} {config : Configuration} {execution : Execution}

/-- The value that is printed for what a build came to, or how the program ends instead. -/
def printed (built : Except Fault NodeMap) : Except Ending Json :=
  match built with
  | .error fault => .error (if fault.kind.isLoad then .exit 1 else .fault fault)
  | .ok map =>
    match map.describe with
    | .error fault => .error (.fault fault)
    | .ok value => if value.isWritable then .ok value else .error (.fault .integerTooLong)

private theorem printed_eq_ok_iff {built : Except Fault NodeMap} {value : Json} :
    printed built = .ok value ↔
      ∃ map, built = .ok map ∧ map.describe = .ok value ∧ value.isWritable = true := by
  cases built with
  | error fault => exact ⟨nofun, nofun⟩
  | ok map =>
      simp only [printed, Except.ok.injEq, exists_eq_left']
      cases map.describe with
      | error fault => simp only [reduceCtorEq, false_and]
      | ok description =>
          by_cases writable : description.isWritable = true
          · simp only [writable, if_true, Except.ok.injEq]
            exact ⟨fun same => ⟨same, same ▸ writable⟩, And.left⟩
          · simp only [writable, Bool.false_eq_true, if_false, reduceCtorEq, false_iff]
            exact fun shown => writable (Except.ok.inj shown.1 ▸ shown.2)

/-- Setting up logging ends as the setup of the root logger does. -/
theorem setupLogging_ends (level : String) (format : LogFormat) (execution : Execution) :
    setupLogging level format execution =
      match execution.root.setup level format logFields with
      | .ok root => (.ok (), { execution with root := root })
      | .error fault => (.error (.fault fault), execution) := by
  have read : (get : Stage Execution) execution = (.ok execution, execution) := rfl
  rw [setupLogging, Act.bind_of_ok read]
  cases execution.root.setup level format logFields <;> rfl

private theorem setupLogging_eq {level : String} (named : RootLogger.NamesLevel level) (format : LogFormat)
    (execution : Execution) :
    ∃ root, setupLogging level format execution = (.ok (), { execution with root := root }) := by
  obtain ⟨root, set⟩ := named.setup format logFields execution.root
  exact ⟨root, by rw [setupLogging_ends, set]⟩

/-- Setting up logging prints nothing and leaves the session alone. -/
theorem setupLogging_shows {level : String} (named : RootLogger.NamesLevel level) (format : LogFormat) :
    (setupLogging level format).Shows execution (.ok ()) [] ∧
      (setupLogging level format execution).2.session = execution.session := by
  obtain ⟨root, reached⟩ := setupLogging_eq named format execution
  rw [reached]
  exact ⟨⟨congrArg Prod.fst reached, by rw [reached, List.append_nil]; rfl⟩, rfl⟩

private theorem configure_shows (once : surroundings.RunsOnce config)
    (fresh : execution.session = .start 0 none) :
    (configure surroundings).Shows execution (.ok config) [] := by
  obtain ⟨loader, accepted⟩ := once.accepted
  have current : execution.session.cleared = .start 0 none := by rw [fresh]; rfl
  rw [← current] at accepted
  unfold configure
  apply (Stage.shows_perform surroundings.time accepted).after
  exact Stage.shows_pure config

/-- The end of a single run: what is done about that which its build came to. -/
def conclude (time : Int) : Except Fault NodeMap → Stage Unit
  | .error fault =>
    if fault.kind.isLoad then Stage.abort time s!"Failed to build node map: {fault.message}"
    else throw (.fault fault)
  | .ok map => do
    let description ← Stage.ofExcept map.describe
    if !description.isWritable then throw (.fault .integerTooLong)
    modify fun execution =>
      { execution with written := execution.written ++ [Output.snapshot description] }

private theorem conclude_shows (time : Int) (built : Except Fault NodeMap) :
    (conclude time built).Shows execution ((printed built).map fun _ => ())
      (printed built).toOption.toList := by
  cases built with
  | error fault =>
      simp only [conclude, printed]
      by_cases load : fault.kind.isLoad = true
      · rw [if_pos load, if_pos load]
        exact Stage.shows_abort time _
      · rw [if_neg load, if_neg load]
        exact Stage.shows_throw _
  | ok map =>
      simp only [conclude, printed]
      cases map.describe with
      | error fault => exact Stage.shows_throw (.fault fault)
      | ok value =>
          apply (Stage.shows_pure value).after
          dsimp only
          cases writable : value.isWritable with
          | true => exact ⟨rfl, execution.snapshots_snapshot value⟩
          | false => exact Stage.shows_throw (.fault .integerTooLong)

/-- Printing a snapshot limits the calls, builds the map and concludes with it. -/
theorem printSnapshot_eq (surroundings : Surroundings) (config : Configuration) :
    printSnapshot surroundings config = Stage.limitCalls config.rateLimit false >>= fun _ =>
      Stage.perform surroundings.time
        (NodeMap.ofCluster config.nodeMapConfig surroundings.schedule surroundings.cluster).run >>=
          conclude surroundings.time :=
  rfl

private theorem printSnapshot_shows (surroundings : Surroundings) (limits : 0 < config.rateLimit) :
    (printSnapshot surroundings config).Shows execution
      ((printed (surroundings.built config)).map fun _ => ())
      (printed (surroundings.built config)).toOption.toList := by
  have limited : (Stage.limitCalls config.rateLimit false).Shows execution (.ok ()) [] :=
    ⟨rfl, (List.append_nil _).symm⟩
  -- At least one call is granted in each second, so that the limiter delays calls and refuses none.
  have admits : (Stage.limitCalls config.rateLimit false execution).2.session.cleared.Admits := by
    intro limiter placed
    cases placed
    exact Limiter.admits_new limits _ false
  have came := Session.Admits.ofCluster_returns surroundings.cluster config.nodeMapConfig
    surroundings.schedule _ admits
  rw [printSnapshot_eq]
  apply limited.after
  apply (Stage.shows_perform surroundings.time came.1).after
  exact conclude_shows surroundings.time (surroundings.built config)

/-- **A single run prints what its cluster comes to**, or ends without printing. -/
theorem run_shows (once : surroundings.RunsOnce config) :
    (run surroundings).Shows .start ((printed (surroundings.built config)).map fun _ => ())
      (printed (surroundings.built config)).toOption.toList := by
  obtain ⟨early, fresh⟩ := setupLogging_shows once.earlyLevel (earlyFormat surroundings.environment)
  unfold run
  apply early.after
  apply (configure_shows once fresh).after
  apply (setupLogging_shows once.level _).1.after
  rw [once.once]
  exact printSnapshot_shows surroundings once.rateLimit_pos

end Program

/-! ### Runs that have the cluster and the rules in common -/

/-- Two clusters that answer alike, however long they take for it. -/
structure ClusterApi.Agrees (api other : ClusterApi) : Prop where
  nodes : other.nodes = api.nodes
  pods : other.pods = api.pods

/-- Two configurations of the same rules and the same threshold. -/
structure Configuration.Agrees (config other : Configuration) : Prop where
  spotNodeLabel : other.spotNodeLabel = config.spotNodeLabel
  onDemandNodeLabel : other.onDemandNodeLabel = config.onDemandNodeLabel
  priorityThreshold : other.priorityThreshold = config.priorityThreshold

namespace NodeMap

/-- The number of workers has no say in what a build comes to. -/
theorem outcome_workers (config : NodeMapConfig) (workers : Int)
    (answer : Node → Except Fault (List Pod)) :
    outcome { config with workers := workers } answer = outcome config answer := rfl

end NodeMap

namespace Program

variable {surroundings other : Surroundings} {config otherConfig : Configuration}

/-- Two surroundings that agree build the same map. -/
theorem built_agrees (answers : surroundings.cluster.Agrees other.cluster)
    (rules : config.Agrees otherConfig) :
    other.built otherConfig = surroundings.built config := by
  have nodes : other.cluster.listedNodes = surroundings.cluster.listedNodes := by
    rw [ClusterApi.listedNodes, answers.nodes]
    rfl
  have pods : other.cluster.listedPods = surroundings.cluster.listedPods := by
    funext node
    rw [ClusterApi.listedPods, answers.pods]
    rfl
  have workers : otherConfig.nodeMapConfig =
      { config.nodeMapConfig with workers := otherConfig.buildWorkers } := by
    rw [Configuration.nodeMapConfig, rules.spotNodeLabel, rules.onDemandNodeLabel,
      rules.priorityThreshold]
    rfl
  rw [Surroundings.built, nodes, pods, workers, NodeMap.outcome_workers]
  rfl

/-- What is built of the cluster is the map of the nodes that it lists, whoever builds it. -/
theorem built_eq_ok_iff {session : Session} (admits : session.Admits) (workers : Int)
    (schedule : List PoolMove) {map : NodeMap} :
    surroundings.built config = .ok map ↔
      ∃ nodes, surroundings.cluster.nodes = .ok (some nodes) ∧
        (NodeMap.build { config.nodeMapConfig with workers := workers } surroundings.cluster.listPods
          schedule nodes session).1 = .ok map := by
  have build : ∀ nodes, (NodeMap.build { config.nodeMapConfig with workers := workers }
      surroundings.cluster.listPods schedule nodes session).1 =
        NodeMap.outcome config.nodeMapConfig surroundings.cluster.listedPods nodes := by
    intro nodes
    exact (NodeMap.build_returns (Session.Admits.listPods_returns _) schedule nodes session admits).1
  simp only [Surroundings.built, Outcome.bind_eq_ok_iff, ClusterApi.listedNodes_eq_ok_iff, build]

private theorem prints_iff {built : Except Fault NodeMap} {value : Json} :
    (printed built).toOption.toList = [value] ↔ printed built = .ok value := by
  cases printed built with
  | error ending => exact ⟨nofun, nofun⟩
  | ok other => simp [Except.toOption]

/-- **A snapshot tells of the cluster, the rules and the threshold only.** Two programs that run once, whose
clusters answer alike and whose configurations have the same rules and the same threshold, end in the same way
and print the same. Each prints at most one snapshot: the description of the map that is built of the nodes
which the cluster lists, if it can be built and written. -/
theorem run_snapshots (once : surroundings.RunsOnce config) (otherOnce : other.RunsOnce otherConfig)
    (answers : surroundings.cluster.Agrees other.cluster) (rules : config.Agrees otherConfig) :
    (run other .start).1 = (run surroundings .start).1 ∧
    (run other .start).2.snapshots = (run surroundings .start).2.snapshots ∧
    (run surroundings .start).2.snapshots.length ≤ 1 ∧
    ∀ workers schedule session value, session.Admits →
      ((run surroundings .start).2.snapshots = [value] ↔
        ∃ nodes map, surroundings.cluster.nodes = .ok (some nodes) ∧
          (NodeMap.build
            ⟨config.spotNodeLabel, config.onDemandNodeLabel, config.priorityThreshold, workers⟩
            surroundings.cluster.listPods schedule nodes session).1 = .ok map ∧
          map.describe = .ok value ∧ value.isWritable = true) := by
  have first := run_shows once
  have second := run_shows otherOnce
  rw [built_agrees answers rules] at second
  have snapshots : (run surroundings .start).2.snapshots =
      (printed (surroundings.built config)).toOption.toList := first.prints
  refine ⟨second.ends.trans first.ends.symm, second.prints.trans first.prints.symm, ?_, ?_⟩
  · rw [snapshots]
    exact Option.length_toList_le
  · intro workers schedule session value admits
    rw [snapshots, prints_iff, printed_eq_ok_iff]
    simp only [built_eq_ok_iff admits workers schedule]
    constructor
    · rintro ⟨map, ⟨nodes, listed, built⟩, described, writable⟩
      exact ⟨nodes, map, listed, built, described, writable⟩
    · rintro ⟨nodes, map, listed, built, described, writable⟩
      exact ⟨map, ⟨nodes, listed, built⟩, described, writable⟩

end Program

/-! ## The small fleet, configured in two ways -/

namespace SmallFleet

/-- The configuration of defaults, but for the single run. -/
def plainConfig : Configuration where
  spotNodeLabel := NodeMapConfig.standard.spotRule
  onDemandNodeLabel := NodeMapConfig.standard.onDemandRule
  priorityThreshold := 0
  housekeepingInterval := 10
  buildWorkers := 1
  rateLimit := 20
  metricsPort := 9235
  runOnce := true
  logLevel := "INFO"
  logFormat := .json

/-- Nothing is set but the single run. -/
def plain : Surroundings := ⟨0, [("RUN_ONCE", "true")], .ok none, [api], []⟩

def tunedConfig : Configuration :=
  { plainConfig with buildWorkers := 4, rateLimit := 1, logLevel := "WARNING", logFormat := .text }

/-- The environment and the ConfigMap set much, the default rule among it, and every call takes its time. -/
def tuned : Surroundings where
  time := 1700000000
  environment := [("K8S_API_RATE_LIMIT", "1"), ("BUILD_WORKERS", "8"), ("LOG_LEVEL", "debug")]
  configMap := .ok (some [("spot_node_label", some "kubernetes.io/role=spot-worker"),
    ("run_once", some " TRUE "), ("build_workers", some "4"), ("log_level", some "warning"),
    ("log_format", some "text")])
  clusters := [{ api with latency := .finite (1 / 2) }]
  schedule := []

private theorem map_describe : ∃ value, map.describe = .ok value ∧ value.isWritable = true := by
  have writable : map.describe.toOption.map Json.isWritable = some true := by decide +kernel
  cases described : map.describe with
  | error fault =>
      rw [described] at writable
      cases writable
  | ok value =>
      rw [described] at writable
      exact ⟨value, rfl, Option.some.inj writable⟩

private theorem plain_runsOnce : plain.RunsOnce plainConfig where
  accepted := ⟨_, rfl⟩
  once := rfl
  environmentLevel := by
    intro text given
    cases given
  level := by decide +kernel

private theorem tuned_runsOnce : tuned.RunsOnce tunedConfig where
  accepted := ⟨_, rfl⟩
  once := rfl
  environmentLevel := by
    intro text given
    cases given
    decide +kernel
  level := by decide +kernel

end SmallFleet

/-- The small fleet is printed alike with and without settings that do not matter. -/
theorem Program.run_snapshots_smallFleet :
    ∃ value, SmallFleet.map.describe = .ok value ∧
      (run SmallFleet.plain .start).2.snapshots = [value] ∧
      (run SmallFleet.tuned .start).2.snapshots = [value] := by
  obtain ⟨-, same, -, prints⟩ := run_snapshots SmallFleet.plain_runsOnce SmallFleet.tuned_runsOnce
    ⟨rfl, rfl⟩ ⟨rfl, rfl, rfl⟩
  obtain ⟨value, described, writable⟩ := SmallFleet.map_describe
  have printed : (run SmallFleet.plain .start).2.snapshots = [value] := by
    apply (prints 1 [] (.start 0 none) value nofun).mpr
    exact ⟨SmallFleet.nodes, SmallFleet.map, rfl, SmallFleet.api_build, described, writable⟩
  exact ⟨value, described, printed, same.trans printed⟩

end SpotCapacity
