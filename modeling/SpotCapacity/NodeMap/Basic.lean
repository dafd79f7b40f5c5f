import SpotCapacity.NodeInfo

/-!
# Node maps

The spot nodes and the on-demand nodes of a cluster, each list in the order in which nodes are
drained or filled. Nodes of no class are in no map.
-/

namespace SpotCapacity

def totalRequestedCpu (infos : List NodeInfo) : Int :=
  (infos.map (·.requestedCpu)).foldr (· + ·) 0

def totalFreeCpu (infos : List NodeInfo) : Int :=
  (infos.map (·.freeCpu)).foldr (· + ·) 0

/-- The accounted nodes of a cluster by class. -/
structure NodeMap where
  spot : List NodeInfo
  onDemand : List NodeInfo
  deriving Repr

namespace NodeMap

def byClass (map : NodeMap) : List (NodeClass × List NodeInfo) :=
  [(.spot, map.spot), (.onDemand, map.onDemand)]

def summary (map : NodeMap) : Except Fault String := do
  let spotRequested ← integerText (totalRequestedCpu map.spot)
  let requested ← integerText (totalRequestedCpu map.onDemand)
  let free ← integerText (totalFreeCpu map.onDemand)
  return s!"{map.spot.length} spot nodes ({spotRequested}m requested), " ++
    s!"{map.onDemand.length} on-demand nodes ({requested}m requested, {free}m free)"

/-- The description of a map: its lists, spot nodes first. -/
def describe (map : NodeMap) : Except Fault Json := do
  let spot ← map.spot.mapM NodeInfo.describe
  let onDemand ← map.onDemand.mapM NodeInfo.describe
  return .object
    [(NodeClass.spot.name, .array spot), (NodeClass.onDemand.name, .array onDemand)]

/-- Orders nodes with their classes: spot nodes by most requested CPU first, since they are drained
in this order, on-demand nodes by least requested CPU first, since they are filled in this order.
Ties keep the order of the list. -/
def assemble (infos : List (NodeClass × NodeInfo)) : NodeMap :=
  let ofClass (nodeClass : NodeClass) := (infos.filter (·.1 == nodeClass)).map (·.2)
  { spot := (ofClass .spot).mergeSort fun left right => right.requestedCpu ≤ left.requestedCpu
    onDemand :=
      (ofClass .onDemand).mergeSort fun left right => left.requestedCpu ≤ right.requestedCpu }

end NodeMap

end SpotCapacity
