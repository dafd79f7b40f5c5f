import SpotCapacity.Metrics.Gauge
import SpotCapacity.Metrics.Histogram
import SpotCapacity.Session

/-!
# The exporter

What the program shows of itself: the gauges of the latest node map, the builds by their result, how
long they took, and how often the rate limiter delayed a call. The exporter remembers which nodes it
has shown, so that the series of a node that left the map are removed and all others stay.
-/

namespace SpotCapacity

/-- The metrics of the program, the port they are served on, and the ports on which a server was
started. -/
structure Exporter where
  port : Int
  started : List Int
  gauges : Gauges
  published : List NodeKey
  successes : Nat
  failures : Nat
  durations : Histogram
  delays : Nat
  deriving Repr

namespace Exporter

def standardPort : Int := 9235

def new (port : Int) : Exporter :=
  { port := port, started := [], gauges := [], published := [], successes := 0, failures := 0
    durations := .empty, delays := 0 }

/-- Starts the server on the port of the exporter, which is one that a server can be started on, as the port of
a configuration is. -/
def start (exporter : Exporter) : StateM Session Exporter := do
  modify fun session =>
    session.log .info .exporter s!"Prometheus metrics server started on port {exporter.port}"
  return { exporter with started := exporter.started ++ [exporter.port] }

/-- The shown nodes that are not in a map. -/
def gone (exporter : Exporter) (map : NodeMap) : List NodeKey :=
  exporter.published.filter fun key => !map.keys.contains key

/-- The steps by which a map replaces what is shown. -/
def updateSteps (exporter : Exporter) (map : NodeMap) : List GaugeStep :=
  map.publication ++ (GaugeSeries.withdrawal (exporter.gone map)).map .ok

/-- Shows a map. When a step fails, the nodes shown by the steps before it are not remembered. -/
def update (map : NodeMap) (exporter : Exporter) : Except Fault Unit × Exporter :=
  match exporter.gauges.take (exporter.updateSteps map) with
  | (.ok (), gauges) => (.ok (), { exporter with gauges := gauges, published := map.keys })
  | (.error fault, gauges) => (.error fault, { exporter with gauges := gauges })

/-- Removes the series of the remembered nodes and of the classes. -/
def clear (exporter : Exporter) : Exporter :=
  { exporter with
    gauges := exporter.gauges.changeAll
      (GaugeSeries.withdrawal exporter.published ++ GaugeSeries.classWithdrawal)
    published := [] }

def countBuild (success : Bool) (exporter : Exporter) : Exporter :=
  { exporter with
    successes := exporter.successes + (if success then 1 else 0)
    failures := exporter.failures + (if success then 0 else 1) }

def observeBuild (duration : Double) (exporter : Exporter) : Exporter :=
  { exporter with durations := exporter.durations.observe duration }

def recordBuild (success : Bool) (duration : Double) (exporter : Exporter) : Exporter :=
  (exporter.countBuild success).observeBuild duration

/-- Counts a build and the whole seconds it took. When they are out of range, the build is counted
and its time is not. -/
def recordSeconds (success : Bool) (seconds : Int) (exporter : Exporter) :
    Except Fault Unit × Exporter :=
  let counted := exporter.countBuild success
  match Double.ofInt? seconds with
  | some duration => (.ok (), counted.observeBuild duration)
  | none => (.error .doubleRange, counted)

def recordDelays (count : Nat) (exporter : Exporter) : Exporter :=
  { exporter with delays := exporter.delays + count }

end Exporter

end SpotCapacity
