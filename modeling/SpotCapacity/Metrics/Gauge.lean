import SpotCapacity.Keyed
import SpotCapacity.NodeMap.Basic

/-!
# Gauges

The gauges of a node map: the number of nodes of each class, and for each node its requested CPU,
its free CPU and its number of pods. A gauge is changed by single steps that a reader of the metrics
can come between: a series is created at zero, set, or removed. A `GaugeStep` that fails ends the
steps it is among; what was done before it stays done.
-/

namespace SpotCapacity

/-- What is shown of each node. -/
inductive NodeGauge where
  | requestedCpu
  | freeCpu
  | pods
  deriving DecidableEq, Repr

def NodeGauge.all : List NodeGauge := [.requestedCpu, .freeCpu, .pods]

/-- A series: the count of the nodes of a class, or a gauge of one node in its class. -/
inductive GaugeSeries where
  | nodes (nodeClass : NodeClass)
  | ofNode (gauge : NodeGauge) (node : String) (nodeClass : NodeClass)
  deriving DecidableEq, Repr

/-- The series that exist, with their values. -/
abbrev Gauges := List (GaugeSeries × Double)

/-- A change of the series. -/
inductive GaugeChange where
  | create (series : GaugeSeries)
  | set (series : GaugeSeries) (value : Double)
  | remove (series : GaugeSeries)
  deriving DecidableEq, Repr

/-- A change, or the fault in its place. -/
abbrev GaugeStep := Except Fault GaugeChange

namespace Gauges

/-- The series after a change. A series that exists keeps its value when it is created again. -/
def change (gauges : Gauges) : GaugeChange → Gauges
  | .create series =>
    match gauges.lookup series with
    | some _ => gauges
    | none => Keyed.put series 0 gauges
  | .set series value => Keyed.put series value gauges
  | .remove series => Keyed.erase series gauges

def changeAll (gauges : Gauges) (changes : List GaugeChange) : Gauges := changes.foldl change gauges

/-- Takes steps up to the first that fails. -/
def take (gauges : Gauges) : List GaugeStep → Except Fault Unit × Gauges
  | [] => (.ok (), gauges)
  | .ok step :: rest => take (gauges.change step) rest
  | .error fault :: _ => (.error fault, gauges)

end Gauges

/-- A node in a class, as the exporter keeps account of it. -/
abbrev NodeKey := Option String × NodeClass

namespace GaugeSeries

/-- Gives a series the number nearest to an integer. -/
def assign (series : GaugeSeries) (n : Int) : List GaugeStep :=
  [.ok (.create series),
   match Double.ofInt? n with
    | some value => .ok (.set series value)
    | none => .error .doubleRange]

def withdrawal (keys : List NodeKey) : List GaugeChange :=
  keys.flatMap fun key =>
    NodeGauge.all.map fun gauge => .remove (.ofNode gauge (shown key.1) key.2)

def classWithdrawal : List GaugeChange :=
  NodeClass.all.map fun nodeClass => .remove (.nodes nodeClass)

end GaugeSeries

namespace NodeInfo

def publication (nodeClass : NodeClass) (info : NodeInfo) : List GaugeStep :=
  match info.node.name with
  | .error fault => [.error fault]
  | .ok name =>
    let series (gauge : NodeGauge) := GaugeSeries.ofNode gauge (shown name) nodeClass
    (series .requestedCpu).assign info.requestedCpu ++ (series .freeCpu).assign info.freeCpu ++
      (series .pods).assign info.pods.length

end NodeInfo

namespace NodeMap

def keys (map : NodeMap) : List NodeKey :=
  (map.byClass.flatMap fun (nodeClass, infos) =>
    infos.filterMap fun info => info.node.name.toOption.map fun name => (name, nodeClass)).eraseDups

/-- Shows a map: for each class the number of its nodes and then its nodes. -/
def publication (map : NodeMap) : List GaugeStep :=
  map.byClass.flatMap fun (nodeClass, infos) =>
    (GaugeSeries.nodes nodeClass).assign infos.length ++
      infos.flatMap (NodeInfo.publication nodeClass)

end NodeMap

end SpotCapacity
