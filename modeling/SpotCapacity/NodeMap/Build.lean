import SpotCapacity.Cluster.Client
import SpotCapacity.NodeMap.Basic
import SpotCapacity.NodeMap.Pool

/-!
# Building node maps

A node map is built from the nodes of a cluster: nodes are classified by their labels, the pods on
each spot or on-demand node are listed and counted, and the accounted nodes are put in order. On
spot nodes, pods below the priority threshold are left out before anything is counted. One node
that cannot be accounted fails the whole build; there is no partial map.
-/

namespace SpotCapacity

/-- The rules and limits by which a node map is built. -/
structure NodeMapConfig where
  spotRule : LabelRule
  onDemandRule : LabelRule
  threshold : Int
  workers : Int
  deriving DecidableEq, Repr

/-- The configuration that applies where nothing else is set. -/
def NodeMapConfig.standard : NodeMapConfig where
  spotRule := ⟨"kubernetes.io/role", some "spot-worker"⟩
  onDemandRule := ⟨"kubernetes.io/role", some "worker"⟩
  threshold := 0
  workers := 1

/-- Anything that lists the pods on a node. -/
abbrev PodLister := Node → Act (List Pod)

/-- A lister that gives a node the same answer whenever it is asked. -/
def PodLister.fixed (answer : Node → Except Fault (List Pod)) : PodLister := fun node => do
  let name ← Act.ofExcept node.name
  Act.note (.called (.listPods name))
  Act.ofExcept (answer node)

namespace NodeMapConfig

def classify (config : NodeMapConfig) (node : Node) : NodeClass :=
  node.classify config.spotRule config.onDemandRule

/-- Leaves out the pods below the priority threshold and reports each of them. A report writes both
numbers, so that one that is too long to be written is a fault. -/
def dropLowPriority (config : NodeMapConfig) (node : Node) : List Pod → Act (List Pod)
  | [] => pure []
  | pod :: rest => do
    if pod.priority < config.threshold then
      let name ← Act.ofExcept node.name
      let key ← Act.ofExcept pod.key
      let priority ← Act.ofExcept (integerText pod.priority)
      let threshold ← Act.ofExcept (integerText config.threshold)
      Act.log .debug .nodes
        s!"{shown name} - Ignoring {key} (priority {priority} < {threshold})"
      config.dropLowPriority node rest
    else
      let others ← config.dropLowPriority node rest
      return pod :: others

/-- Counts the pods that are listed on a node of the given class. -/
def account (config : NodeMapConfig) (lister : PodLister) (node : Node) (nodeClass : NodeClass) :
    Act NodeInfo := do
  let listed ← lister node
  let pods ← if nodeClass = .spot then config.dropLowPriority node listed else pure listed
  let sorted ← Act.ofExcept (sortByCpu pods)
  Act.ofExcept (NodeInfo.ofPods node sorted)

/-- Counts the pods on a node of the given class, or of the class that its labels tell. -/
def accountNode (config : NodeMapConfig) (lister : PodLister)
    (node : Node) (nodeClass : Option NodeClass) : Act NodeInfo :=
  config.account lister node (nodeClass.getD (config.classify node))

/-- Counts the pods on a node and reports if they could not be listed. -/
def accountReporting (config : NodeMapConfig) (lister : PodLister)
    (node : Node) (nodeClass : NodeClass) : Act NodeInfo := do
  match ← Act.outcome (config.account lister node nodeClass) with
  | .ok info => return info
  | .error fault =>
    if fault.kind.isLoad then
      let name ← Act.ofExcept node.name
      Act.log .error .nodes s!"{shown name} - Failed to load pods: {fault.message}"
    throw fault

/-- The nodes of a class with their class; nodes of no class are reported and left out. -/
def triage (config : NodeMapConfig) : List Node → Act (List (Node × NodeClass))
  | [] => pure []
  | node :: rest => do
    match config.classify node with
    | .none =>
      let name ← Act.ofExcept node.name
      Act.log .debug .nodes
        s!"{shown name} - Matches neither spot nor on-demand label, skipping"
      config.triage rest
    | nodeClass =>
      let others ← config.triage rest
      return (node, nodeClass) :: others

/-- Runs tasks one after the other, up to the first fault. -/
def inTurn {α : Type} : List (Act α) → Act (List α)
  | [] => pure []
  | task :: rest => do
    let value ← task
    let values ← inTurn rest
    return value :: values

end NodeMapConfig

namespace NodeMap

/-- The task of accounting a node of a class. -/
def accountTask (config : NodeMapConfig) (lister : PodLister)
    (entry : Node × NodeClass) : Act (NodeClass × NodeInfo) := do
  let info ← config.accountReporting lister entry.1 entry.2
  return (entry.2, info)

/-- Builds the map of a list of nodes. With several workers the nodes are accounted on a pool, by
the given schedule. -/
def build (config : NodeMapConfig) (lister : PodLister) (schedule : List PoolMove)
    (nodes : List Node) : Act NodeMap := do
  let classified ← config.triage nodes
  let tasks := classified.map (accountTask config lister)
  let infos ←
    if 1 < config.workers ∧ 1 < classified.length then
      Pool.results config.workers schedule tasks
    else NodeMapConfig.inTurn tasks
  let map := assemble infos
  let summary ← Act.ofExcept map.summary
  Act.log .info .nodes s!"Node map built: {summary}"
  return map

/-- Lists the nodes of a cluster and builds their map. -/
def ofCluster (config : NodeMapConfig) (schedule : List PoolMove) (api : ClusterApi) :
    Act NodeMap := do
  let nodes ← api.listNodes
  build config api.listPods schedule nodes

end NodeMap

end SpotCapacity
