import SpotCapacity.Label

/-!
# Nodes and pods

The objects of a cluster, as far as accounting needs them. Every part of an object may be absent:
an absent name is written as such, while absent metadata is a fault wherever a name is asked for.
-/

namespace SpotCapacity

/-- Amounts of resources by name, each name once. -/
abbrev ResourceList := List (String × Option Quantity)

structure Resources where
  requests : Option ResourceList
  deriving Repr

structure Container where
  resources : Option Resources
  deriving Repr

structure PodMetadata where
  name : Option String
  space : Option String
  deriving Repr

/-- What a pod runs and how important it is. -/
structure PodSpec where
  containers : Option (List Container)
  priority : Option Int
  deriving Repr

structure Pod where
  metadata : Option PodMetadata
  spec : Option PodSpec
  deriving Repr

structure NodeMetadata where
  name : Option String
  labels : Option LabelSet
  deriving Repr

structure NodeStatus where
  allocatable : Option ResourceList
  deriving Repr

structure Node where
  metadata : Option NodeMetadata
  status : Option NodeStatus
  deriving Repr

namespace Node

/-- The name of a node, itself possibly absent. -/
def name (node : Node) : Except Fault (Option String) :=
  match node.metadata with
  | some metadata => .ok metadata.name
  | none => .error (.noMember .null "name")

/-- The labels of a node, none when it has no metadata. -/
def labels (node : Node) : LabelSet := (node.metadata.bind (·.labels)).getD []

def classify (node : Node) (spotRule onDemandRule : LabelRule) : NodeClass :=
  NodeClass.ofLabels spotRule onDemandRule node.labels

end Node

namespace Pod

/-- The key of a pod: its namespace and its name. -/
def key (pod : Pod) : Except Fault String :=
  match pod.metadata with
  | some metadata => .ok (shown metadata.space ++ "/" ++ shown metadata.name)
  | none => .error (.noMember .null "namespace")

/-- The priority of a pod, zero unless it says otherwise. -/
def priority (pod : Pod) : Int := (pod.spec.bind (·.priority)).getD 0

end Pod

end SpotCapacity
