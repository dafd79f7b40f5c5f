import SpotCapacity.Cpu
import SpotCapacity.Json

/-!
# Accounted nodes

A node together with the pods counted on it, the CPU they request and the CPU that is left. A
`NodeInfo` is a value: a copy shares nothing that a later step on either could change. Adding a pod
counts the whole list again; when that fails, the pod is on the list while the totals are still
those before it.
-/

namespace SpotCapacity

/-- A node, the pods counted on it and its totals in millicores. The free CPU is negative when the
node is overcommitted. -/
structure NodeInfo where
  node : Node
  pods : List Pod
  requestedCpu : Int
  freeCpu : Int
  deriving Repr

namespace NodeInfo

/-- A node on which nothing has been counted yet. -/
def uncounted (node : Node) : NodeInfo := ⟨node, [], 0, 0⟩

/-- The requested and the free CPU of a node with the given pods. -/
def count (node : Node) (pods : List Pod) : Except Fault (Int × Int) := do
  let requested ← SpotCapacity.requestedCpu pods
  let allocatable ← node.allocatableCpu
  return (requested, allocatable - requested)

def ofPods (node : Node) (pods : List Pod) : Except Fault NodeInfo := do
  let (requested, free) ← count node pods
  return ⟨node, pods, requested, free⟩

/-- Adds a pod at the end of the list and counts again. -/
def addPod (pod : Pod) (info : NodeInfo) : Except Fault Unit × NodeInfo :=
  let pods := info.pods ++ [pod]
  match count info.node pods with
  | .ok (requested, free) => (.ok (), ⟨info.node, pods, requested, free⟩)
  | .error fault => (.error fault, { info with pods := pods })

/-- Orders the pods by CPU request, biggest first; the totals stay as they are. -/
def sortPods (info : NodeInfo) : Except Fault NodeInfo := do
  let pods ← sortByCpu info.pods
  return { info with pods := pods }

def describePod (pod : Pod) : Except Fault Json := do
  let key ← pod.key
  let cpu ← pod.cpuRequest
  return .object
    [("pod", .string key), ("cpu", .integer cpu), ("priority", .integer pod.priority)]

def describe (info : NodeInfo) : Except Fault Json := do
  let name ← info.node.name
  let allocatable ← info.node.allocatableCpu
  let pods ← info.pods.mapM describePod
  return .object
    [("name", match name with
        | some name => .string name
        | none => .null),
     ("allocatable_cpu", .integer allocatable),
     ("requested_cpu", .integer info.requestedCpu),
     ("free_cpu", .integer info.freeCpu),
     ("pods", .array pods)]

end NodeInfo

end SpotCapacity
