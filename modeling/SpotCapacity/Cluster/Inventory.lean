import SpotCapacity.Cluster.Client
import SpotCapacity.Keyed

/-!
# Inventories

The state of a cluster as lines of words, for a program that is given its cluster rather than
connected to it. A line is `time` with milliseconds since 1970, `node` with a name, its allocatable
CPU and its labels, or `pod` with the name of its node, its namespace, name and priority and the CPU
request of each container.
-/

namespace SpotCapacity

/-- The nodes of a cluster and the pods with the names of their nodes, at a time. -/
structure Inventory where
  time : Int
  nodes : List Node
  pods : List (String × Pod)
  deriving Repr

namespace Inventory

def empty : Inventory := ⟨0, [], []⟩

def label (word : String) : String × String :=
  let key := word.toList.takeWhile (· != '=')
  (String.ofList key, String.ofList (word.toList.drop (key.length + 1)))

/-- A container that requests an amount of CPU. -/
def container (amount : String) : Container := ⟨some ⟨some [("cpu", some (.text amount))]⟩⟩

/-- A node of a name with an amount of allocatable CPU and labels. -/
def node (name amount : String) (labels : List String) : Node :=
  ⟨some ⟨some name, some (Keyed.ofPairs (labels.map label))⟩,
   some ⟨some [("cpu", some (.text amount))]⟩⟩

/-- A pod of a namespace and a name with a priority and the requests of its containers. -/
def pod (space name : String) (priority : Int) (amounts : List String) : Pod :=
  ⟨some ⟨some name, some space⟩, some ⟨some (amounts.map container), some priority⟩⟩

/-- The inventory with what one line adds to it; none when the line says nothing that is known. -/
def addLine? (inventory : Inventory) : List String → Option Inventory
  | [] => some inventory
  | ["time", written] =>
    (Text.integer? written.toList).map fun time => { inventory with time := time }
  | "node" :: name :: amount :: labels =>
    some { inventory with nodes := inventory.nodes ++ [node name amount labels] }
  | "pod" :: host :: space :: name :: written :: amounts =>
    (Text.integer? written.toList).map fun priority =>
      { inventory with pods := inventory.pods ++ [(host, pod space name priority amounts)] }
  | _ => none

def ofLines? (lines : List String) : Option Inventory :=
  lines.foldlM (fun inventory line =>
    inventory.addLine? ((line.splitOn " ").filter fun word => !word.isEmpty)) empty

/-- The cluster API of a cluster that stays as the inventory says. -/
def api (inventory : Inventory) : ClusterApi :=
  { nodes := .ok (some inventory.nodes)
    pods := fun name =>
      .ok (some ((inventory.pods.filter fun entry => name == some entry.1).map (·.2)))
    latency := 0
    stops := false }

end Inventory

end SpotCapacity
