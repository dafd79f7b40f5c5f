import SpotCapacity.Identity
import SpotCapacity.Log.Root
import SpotCapacity.Monitor
import SpotCapacity.Settings.Loader

/-!
# The program

The way of the program from its environment to its end. It sets up logging by the environment, loads
the configuration, sets up logging by what it loaded, and then either prints one snapshot of the
node map or serves metrics and runs the housekeeping loop. `Program.run` is the whole way;
`Execution` is what has become of the program so far.
-/

namespace SpotCapacity

/-- What the program finds around it: the time of its log records, the environment, the answer to a
request for its ConfigMap, the states that the cluster takes one after another, and the schedule of
its worker pools. The cluster is one that has been found: it answers. -/
structure Surroundings where
  time : Int
  environment : List (String × String)
  configMap : Except ApiFailure (Option ConfigMapData)
  clusters : List ClusterApi
  schedule : List PoolMove

/-- The signals on which the program stops. -/
inductive Signal where
  | interrupt
  | terminate
  deriving DecidableEq, Repr

def Signal.name : Signal → String
  | .interrupt => "SIGINT"
  | .terminate => "SIGTERM"

/-- Something that the program writes: log lines or a snapshot. -/
inductive Output where
  | lines (text : String)
  | snapshot (value : Json)
  deriving Repr

def Output.text : Output → String
  | .lines text => text
  | .snapshot value => value.indentedText 0 ++ "\n"

/-- Why the program ended early: by an exit code of its own, or by a fault that nothing handles. -/
inductive Ending where
  | exit (code : Nat)
  | fault (fault : Fault)
  deriving DecidableEq, Repr

/-- A running program: its root logger, what it did, what it wrote, the signals it handles, and its
exporter. -/
structure Execution where
  root : RootLogger
  session : Session
  written : List Output
  handled : List Signal
  exporter : Option Exporter
  deriving Repr

namespace Execution

def start : Execution := ⟨.unset, .start 0 none, [], [], none⟩

def output (execution : Execution) : String := String.join (execution.written.map Output.text)

/-- The snapshots among what was written. -/
def snapshots (execution : Execution) : List Json :=
  execution.written.filterMap fun
    | .snapshot value => some value
    | _ => none

end Execution

/-- A stage of the program. -/
abbrev Stage (α : Type) := ExceptT Ending (StateM Execution) α

namespace Stage

/-- Ends the program by a fault that nothing handles. -/
def ofExcept {α : Type} : Except Fault α → Stage α
  | .ok value => pure value
  | .error fault => throw (.fault fault)

/-- Goes on in the session of the program. What is logged on the way is written at once. -/
def perform {α : Type} (time : Int) (work : StateM Session α) : Stage α := do
  let execution ← get
  let (value, session) := work execution.session.cleared
  let lines := execution.root.emitAll time session.records
  set { execution with
    session := { session with trace := execution.session.trace ++ session.trace }
    written := execution.written ++ [Output.lines lines] }
  return value

/-- Reports an error and ends the program with an exit code. -/
def abort {α : Type} (time : Int) (message : String) : Stage α := do
  perform time (modify (·.log .error .monitor message))
  throw (.exit 1)

/-- Puts a limiter of API calls into place. -/
def limitCalls (maxCalls : Int) (reports : Bool) : Stage Unit :=
  let limiter : Limiter Double := .new maxCalls (.span (.finite 1)) reports
  modify fun execution =>
    { execution with session := { execution.session with limiter := some limiter } }

end Stage

namespace Program

/-- The fields that all log lines of the program have. -/
def logFields : List (String × Json) :=
  [("component", .string programName), ("version", .string programVersion)]

/-- Sets up logging. -/
def setupLogging (level : String) (format : LogFormat) : Stage Unit := do
  let root ← Stage.ofExcept ((← get).root.setup level format logFields)
  modify fun execution => { execution with root := root }

/-- A value of the environment, or what stands for it. -/
def variableD (environment : List (String × String)) (name standard : String) : String :=
  (environment.lookup name).getD standard

/-- The log format that the environment asks for: any value but `json`, in any case, is plain
text. -/
def earlyFormat (environment : List (String × String)) : LogFormat :=
  let written := variableD environment Setting.logFormat.name Setting.logFormat.default
  if Text.lowerAscii written.toList = "json".toList then .json else .text

/-- The loader of the configuration, by the environment. -/
def loader (environment : List (String × String)) : Loader :=
  .new (variableD environment "OPERATOR_NAMESPACE" Loader.standardSpace)
    (variableD environment "CONFIGMAP_NAME" Loader.standardConfigMap)

/-- Loads the configuration. The program ends when it is not valid. -/
def configure (surroundings : Surroundings) : Stage Configuration := do
  let input : ConfigInput :=
    ⟨surroundings.environment, some surroundings.configMap⟩
  match ← Stage.perform surroundings.time
      ((loader surroundings.environment).load input).run with
  | .ok (config, _) => return config
  | .error fault =>
    if fault.kind.isConfig then
      Stage.abort surroundings.time s!"Invalid configuration: {fault.message}"
    else throw (.fault fault)

/-- Builds one map and prints it. The program ends when the cluster cannot be read. -/
def printSnapshot (surroundings : Surroundings) (config : Configuration) : Stage Unit := do
  Stage.limitCalls config.rateLimit false
  let api := surroundings.clusters.headD .empty
  match ← Stage.perform surroundings.time
      (NodeMap.ofCluster config.nodeMapConfig surroundings.schedule api).run with
  | .error fault =>
    if fault.kind.isLoad then
      Stage.abort surroundings.time s!"Failed to build node map: {fault.message}"
    else throw (.fault fault)
  | .ok map =>
    let description ← Stage.ofExcept map.describe
    if !description.isWritable then throw (.fault .integerTooLong)
    modify fun execution =>
      { execution with written := execution.written ++ [Output.snapshot description] }

/-- Serves metrics and runs the housekeeping loop. The interval of a configuration is an hour at most, which
every clock can wait for. -/
def serve (surroundings : Surroundings) (config : Configuration) : Stage Unit := do
  Stage.limitCalls config.rateLimit true
  modify fun execution => { execution with handled := [.terminate, .interrupt] }
  let exporter ← Stage.perform surroundings.time (Exporter.new config.metricsPort).start
  let monitor := Monitor.new config.nodeMapConfig config.housekeepingInterval (some exporter)
  let (result, monitor) ← Stage.perform surroundings.time
    (monitor.run surroundings.schedule surroundings.clusters)
  modify fun execution => { execution with exporter := monitor.exporter }
  Stage.ofExcept result

/-- The whole way of the program, with a cluster that has been found. The search for it (`Discovery.connect`),
which comes after the first stage, is left out. It looks at nothing but the two places where a cluster can be
found, a fault of it ends the program before anything else is done, and otherwise it leaves one line that tells
where the cluster was found. -/
def run (surroundings : Surroundings) : Stage Unit := do
  let environment := surroundings.environment
  setupLogging (variableD environment Setting.logLevel.name Setting.logLevel.default)
    (earlyFormat environment)
  let config ← configure surroundings
  setupLogging config.logLevel config.logFormat
  if config.runOnce then printSnapshot surroundings config else serve surroundings config

end Program

end SpotCapacity
