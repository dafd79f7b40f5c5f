import SpotCapacity.Cluster.Object
import SpotCapacity.Session

/-!
# Cluster client

Lists nodes and the pods bound to them. Each listing waits for the rate limiter and makes one call;
a failure that the API client reports becomes a failed query that names what was listed, any other
failure is passed on as it is.
-/

namespace SpotCapacity

/-- The answers of the cluster API: its nodes, the pods on a node of a given name, and how long
every call takes. An answer may lack its list. With `stops` set, the program is asked to stop
while it lists the nodes. -/
structure ClusterApi where
  nodes : Except ApiFailure (Option (List Node))
  pods : Option String → Except ApiFailure (Option (List Pod))
  latency : Double
  stops : Bool

namespace ClusterApi

def empty : ClusterApi := ⟨.ok (some []), fun _ => .ok (some []), 0, false⟩

/-- The fault that a failed listing surfaces as. -/
def listingFault (target : QueryTarget) (failure : ApiFailure) : Fault :=
  if failure.isReported then .query target failure else .api failure

def listNodes (api : ClusterApi) : Act (List Node) := do
  Act.throttle
  Act.note (.called .listNodes)
  if api.stops then Act.requestStop
  Act.elapse api.latency
  match api.nodes with
  | .error failure => throw (listingFault .nodes failure)
  | .ok none => throw .absentListCounted
  | .ok (some nodes) =>
    Act.log .debug .cluster s!"Listed {nodes.length} nodes"
    return nodes

/-- Lists the pods of all namespaces that are bound to a node. -/
def listPods (api : ClusterApi) (node : Node) : Act (List Pod) := do
  let name ← Act.ofExcept node.name
  Act.throttle
  Act.note (.called (.listPods name))
  Act.elapse api.latency
  match api.pods name with
  | .error failure => throw (listingFault (.podsOn name) failure)
  | .ok none => throw .absentListRead
  | .ok (some pods) => return pods

end ClusterApi

/-- How the two ways of finding the cluster end. -/
inductive Discovery where
  | found
  | absent (text : String)
  | failed (text : String)
  deriving DecidableEq, Repr

namespace Discovery

def finish : Discovery → Act Unit
  | .found => pure ()
  | .absent text => throw (.noClusterConfig text)
  | .failed text => throw (.api (.foreign .runtime text))

/-- Finds the cluster from inside of it, or else by the local configuration. Only if there is no
cluster around the program, the local configuration is consulted. -/
def connect (inCluster localConfig : Discovery) : Act Unit := do
  Act.note (.consulted .inCluster)
  match inCluster with
  | .absent _ =>
    Act.note (.consulted .localConfig)
    localConfig.finish
    Act.log .info .cluster "Loaded local Kubernetes config"
  | other =>
    other.finish
    Act.log .info .cluster "Loaded in-cluster Kubernetes config"

end Discovery

end SpotCapacity
