import SpotCapacity.Cluster.Object

/-!
# CPU accounting

How much CPU pods request and nodes offer, in millicores. Requests of containers are rounded up one
by one and summed; whatever is absent counts as nothing. A single quantity that cannot be read
makes a sum fail, with the fault of the first such quantity.
-/

namespace SpotCapacity

/-- The sum of an amount over a list, or the first fault among its parts. -/
def total {α : Type} (amount : α → Except Fault Int) : List α → Except Fault Int
  | [] => .ok 0
  | item :: rest => do
    let first ← amount item
    let others ← total amount rest
    return first + others

/-- The CPU amount of a resource list, nothing when it has none. -/
def cpuOf (resources : ResourceList) : Except Fault Int :=
  match Quantity.millicores (resources.lookup "cpu").join with
  | .ok millicores => .ok millicores
  | .error fault => .error (.quantity fault)

def Container.cpuRequest (container : Container) : Except Fault Int :=
  match container.resources.bind (·.requests) with
  | some requests => cpuOf requests
  | none => .ok 0

/-- The CPU that the containers of a pod request together. -/
def Pod.cpuRequest (pod : Pod) : Except Fault Int :=
  total Container.cpuRequest ((pod.spec.bind (·.containers)).getD [])

def requestedCpu (pods : List Pod) : Except Fault Int := total Pod.cpuRequest pods

def Node.allocatableCpu (node : Node) : Except Fault Int :=
  match node.status.bind (·.allocatable) with
  | some allocatable => cpuOf allocatable
  | none => .ok 0

/-- Each pod with its CPU request, or the first fault. -/
def weighPods : List Pod → Except Fault (List (Int × Pod))
  | [] => .ok []
  | pod :: rest => do
    let cpu ← pod.cpuRequest
    let others ← weighPods rest
    return (cpu, pod) :: others

/-- The pods ordered by CPU request, biggest first; equal requests keep their order. -/
def sortByCpu (pods : List Pod) : Except Fault (List Pod) := do
  let weighed ← weighPods pods
  return (weighed.mergeSort fun left right => right.1 ≤ left.1).map (·.2)

end SpotCapacity
