import SpotCapacity.Metrics.Exporter
import SpotCapacity.NodeMap.Build

/-!
# The housekeeping loop

The monitor rebuilds the node map in every cycle. It holds the map of the last cycle, or none when
that cycle failed, so that nothing acts on an old view of the cluster. The loop ends when the
program is asked to stop.
-/

namespace SpotCapacity

/-- A monitor: how it builds maps, the time between two cycles, where it shows them, and the map of
the last cycle. -/
structure Monitor where
  config : NodeMapConfig
  interval : Int
  exporter : Option Exporter
  latest : Option NodeMap
  deriving Repr

namespace Monitor

/-- The time between two cycles in seconds, unless another one is given. -/
def standardInterval : Int := 10

def new (config : NodeMapConfig) (interval : Int) (exporter : Option Exporter) : Monitor :=
  ⟨config, interval, exporter, none⟩

/-- Builds the map of a cluster. Delays that the rate limiter reports on the way are counted. -/
def build (schedule : List PoolMove) (api : ClusterApi) (monitor : Monitor) :
    StateM Session (Except Fault NodeMap × Monitor) := do
  let before := (← get).delays.length
  let result ← (NodeMap.ofCluster monitor.config schedule api).run
  let delays := (← get).delays.length - before
  return (result, { monitor with exporter := monitor.exporter.map (·.recordDelays delays) })

def reportFailure (fault : Fault) (session : Session) : Session :=
  if fault.kind.isLoad then
    session.log .error .monitor s!"Failed to build node map: {fault.message}"
  else
    session.logUnexpected .monitor s!"Unexpected error building node map: {fault.message}"

/-- Drops the map after a build that failed. -/
def discard (duration : Double) (monitor : Monitor) : Monitor :=
  { monitor with
    latest := none
    exporter := monitor.exporter.map fun exporter => (exporter.recordBuild false duration).clear }

/-- Takes over the map of a build and shows it. -/
def adopt (map : NodeMap) (duration : Double) (monitor : Monitor) : Except Fault Unit × Monitor :=
  match monitor.exporter with
  | none => (.ok (), { monitor with latest := some map })
  | some exporter =>
    let (result, exporter) := (exporter.recordBuild true duration).update map
    (result, { monitor with latest := some map, exporter := some exporter })

/-- One cycle. Faults of the build are reported; a fault while the map is shown is the outcome. -/
def cycle (schedule : List PoolMove) (api : ClusterApi) (monitor : Monitor) :
    StateM Session (Except Fault Unit × Monitor) := do
  let start := (← get).now
  let (result, monitor) ← monitor.build schedule api
  match result with
  | .ok map => return monitor.adopt map ((← get).now - start)
  | .error fault =>
    modify (reportFailure fault)
    return (.ok (), monitor.discard ((← get).now - start))

/-- Runs cycles until the program is asked to stop, one for each state that the cluster takes. After
the last state the program is asked to stop. Between two cycles this is waited for; a wait that is longer
than the longest one that there can be is a fault. -/
def cycles (schedule : List PoolMove) (longest : Option Int) :
    List ClusterApi → Monitor → StateM Session (Except Fault Unit × Monitor)
  | [], monitor => pure (.ok (), monitor)
  | api :: rest, monitor => do
    if (← get).stopped then return (.ok (), monitor)
    let (result, monitor) ← monitor.cycle schedule api
    match result with
    | .error fault => return (.error fault, monitor)
    | .ok () =>
      modify (·.note (.waited monitor.interval))
      if (← get).stopped then return (.ok (), monitor)
      if longest.any (· < monitor.interval) then return (.error .waitTooLong, monitor)
      if rest.isEmpty then modify Session.requestStop
      cycles schedule longest rest monitor

/-- The housekeeping loop. How long a wait can be at most, in seconds, is up to the clock: there may be no
limit. -/
def run (schedule : List PoolMove) (apis : List ClusterApi) (monitor : Monitor)
    (longest : Option Int := none) : StateM Session (Except Fault Unit × Monitor) := do
  match integerText monitor.interval with
  | .error fault => return (.error fault, monitor)
  | .ok interval =>
    modify (·.log .info .monitor s!"Starting housekeeping loop (interval {interval}s)")
    let (result, monitor) ← monitor.cycles schedule longest apis
    match result with
    | .error fault => return (.error fault, monitor)
    | .ok () =>
      modify (·.log .info .monitor "Housekeeping loop stopped")
      return (.ok (), monitor)

end Monitor

end SpotCapacity
