import SpotCapacity.Keyed
import SpotCapacity.NodeMap.Build
import SpotCapacity.Settings.Value
import SpotCapacity.Text.UpperCase

/-!
# Loading the configuration

The configuration is made of ten settings. Each takes its value from the last entry of the ConfigMap
whose key names it in any case, else from the environment, else from its default. A `Loader`
holds the configuration of the last load that succeeded; a load that fails leaves it as it was.
-/

namespace SpotCapacity

inductive Setting where
  | spotNodeLabel
  | onDemandNodeLabel
  | priorityThreshold
  | housekeepingInterval
  | buildWorkers
  | rateLimit
  | metricsPort
  | runOnce
  | logLevel
  | logFormat
  deriving DecidableEq, Repr

namespace Setting

/-- All settings, in the order in which they are read. -/
def all : List Setting :=
  [.spotNodeLabel, .onDemandNodeLabel, .priorityThreshold, .housekeepingInterval, .buildWorkers,
   .rateLimit, .metricsPort, .runOnce, .logLevel, .logFormat]

def name : Setting → String
  | .spotNodeLabel => "SPOT_NODE_LABEL"
  | .onDemandNodeLabel => "ON_DEMAND_NODE_LABEL"
  | .priorityThreshold => "PRIORITY_THRESHOLD"
  | .housekeepingInterval => "HOUSEKEEPING_INTERVAL"
  | .buildWorkers => "BUILD_WORKERS"
  | .rateLimit => "K8S_API_RATE_LIMIT"
  | .metricsPort => "METRICS_PORT"
  | .runOnce => "RUN_ONCE"
  | .logLevel => "LOG_LEVEL"
  | .logFormat => "LOG_FORMAT"

/-- The raw value of a setting that is not given. -/
def default : Setting → String
  | .spotNodeLabel => NodeMapConfig.standard.spotRule.text
  | .onDemandNodeLabel => NodeMapConfig.standard.onDemandRule.text
  | .priorityThreshold => toString NodeMapConfig.standard.threshold
  | .housekeepingInterval => "10"
  | .buildWorkers => "1"
  | .rateLimit => "20"
  | .metricsPort => "9235"
  | .runOnce => "false"
  | .logLevel => "INFO"
  | .logFormat => "json"

def ofName? (name : String) : Option Setting := all.find? fun setting => setting.name == name

/-- The setting that a key of a ConfigMap names, in any case. -/
def ofKey? (key : String) : Option Setting :=
  ofName? (String.ofList (Text.upper key.toList))

end Setting

structure Configuration where
  spotNodeLabel : LabelRule
  onDemandNodeLabel : LabelRule
  priorityThreshold : Int
  housekeepingInterval : Int
  buildWorkers : Int
  rateLimit : Int
  metricsPort : Int
  runOnce : Bool
  logLevel : String
  logFormat : LogFormat
  deriving DecidableEq, Repr

namespace Configuration

/-- The part of a configuration by which node maps are built. -/
def nodeMapConfig (config : Configuration) : NodeMapConfig :=
  ⟨config.spotNodeLabel, config.onDemandNodeLabel, config.priorityThreshold, config.buildWorkers⟩

/-- The text of a setting without blanks around it. -/
def trimmed : Option String → Except Fault (List Char)
  | some written => .ok (Text.trim written.toList)
  | none => .error (.noMember .null "strip")

/-- Reads a configuration from raw values, setting by setting up to the first that is not valid. -/
def ofRaw (raw : Setting → Option String) : Except Fault Configuration := do
  let value (setting : Setting) := RawValue.ofText? (raw setting)
  let spotNodeLabel ← (value .spotNodeLabel).labelRule Setting.spotNodeLabel.name
  let onDemandNodeLabel ← (value .onDemandNodeLabel).labelRule Setting.onDemandNodeLabel.name
  let priorityThreshold ← (value .priorityThreshold).priorityThreshold
  let housekeepingInterval ← (value .housekeepingInterval).housekeepingInterval
  let buildWorkers ← (value .buildWorkers).buildWorkers
  let rateLimit ← (value .rateLimit).rateLimit
  let metricsPort ← (value .metricsPort).port Setting.metricsPort.name
  let runOnce ← trimmed (raw .runOnce)
  let logLevel ← trimmed (raw .logLevel)
  let logFormat ← (value .logFormat).logFormat
  return {
    spotNodeLabel, onDemandNodeLabel, priorityThreshold, housekeepingInterval, buildWorkers,
    rateLimit, metricsPort, logFormat
    runOnce := Text.lowerAscii runOnce == "true".toList
    logLevel := String.ofList (Text.upper logLevel) }

end Configuration

/-- The entries of a ConfigMap in their order, each key once; a value may be absent. -/
abbrev ConfigMapData := List (String × Option String)

/-- What a configuration is loaded from: the environment, and the answer of the cluster API when
asked for the ConfigMap, if there is an API client. An answer may lack its entries. -/
structure ConfigInput where
  environment : List (String × String)
  configMap : Option (Except ApiFailure (Option ConfigMapData))

/-- A loader: the place of its ConfigMap, the configuration it holds, how many loads have succeeded,
and whether there is a time of the last one. -/
structure Loader where
  space : String
  configMap : String
  held : Option Configuration
  version : Nat
  reloaded : Bool
  deriving DecidableEq, Repr

namespace Loader

/-- The namespace of the ConfigMap, unless another one is given. -/
def standardSpace : String := "kube-system"

/-- The name of the ConfigMap, unless another one is given. -/
def standardConfigMap : String := "spot-rescheduler-config"

def new (space configMap : String) : Loader := ⟨space, configMap, none, 0, false⟩

/-- The settings among the entries of a ConfigMap; other entries are reported. -/
def overrides : ConfigMapData → Act (List (Setting × Option String)) :=
  go []
where
  /-- The settings found so far and those among the remaining entries. -/
  go (found : List (Setting × Option String)) :
      ConfigMapData → Act (List (Setting × Option String))
    | [] => pure found
    | (key, value) :: rest =>
      match Setting.ofKey? key with
      | some setting => go (Keyed.put setting value found) rest
      | none => do
        Act.log .warning .settings s!"Ignoring unknown ConfigMap key '{key}'"
        go found rest

/-- Reads the ConfigMap. One that is not there or is refused counts as empty; a failure of another
kind is passed on. -/
def readConfigMap (loader : Loader) (input : ConfigInput) :
    Act (List (Setting × Option String)) := do
  match input.configMap with
  | none => return []
  | some answer =>
    Act.note (.called (.readConfigMap loader.space loader.configMap))
    match answer with
    | .error (.refused status reason body) =>
      if status = some 404 then
        Act.log .debug .settings s!"ConfigMap {loader.configMap} not found"
      else
        let failure := ApiFailure.refused status reason body
        Act.log .error .settings
          s!"Error reading ConfigMap, using environment only: {failure.message}"
      return []
    | .error failure => throw (.api failure)
    | .ok none => return []
    | .ok (some data) => overrides data

/-- The raw value of a setting: that of the ConfigMap, of the environment, or the default. -/
def rawValue (environment : List (String × String)) (found : List (Setting × Option String))
    (setting : Setting) : Option String :=
  match found.lookup setting with
  | some value => value
  | none => some ((environment.lookup setting.name).getD setting.default)

def load (loader : Loader) (input : ConfigInput) : Act (Configuration × Loader) := do
  Act.log .info .settings "Loading configuration..."
  let found ← loader.readConfigMap input
  if !found.isEmpty then
    Act.log .info .settings
      s!"Configuration loaded from ConfigMap {loader.space}/{loader.configMap}"
  let config ← Act.ofExcept (Configuration.ofRaw (rawValue input.environment found))
  let version := loader.version + 1
  Act.log .info .settings
    (s!"Configuration loaded (version {version}): " ++
      s!"spot_label={config.spotNodeLabel.text}, " ++
      s!"on_demand_label={config.onDemandNodeLabel.text}, " ++
      s!"priority_threshold={config.priorityThreshold}, " ++
      s!"housekeeping_interval={config.housekeepingInterval}s")
  return (config, { loader with held := some config, version := version, reloaded := true })

/-- The configuration that is held, or else the one that is loaded now. -/
def get (loader : Loader) (input : ConfigInput) : Act (Configuration × Loader) :=
  match loader.held with
  | some config => pure (config, loader)
  | none => loader.load input

/-- The configuration for building node maps, if one is held. -/
def nodeMapConfig (loader : Loader) : Except Fault NodeMapConfig :=
  match loader.held with
  | some config => .ok config.nodeMapConfig
  | none => .error (.noMember .null "node_map_config")

end Loader

end SpotCapacity
