import SpotCapacity.Identity
import SpotCapacity.Metrics.Exporter

/-!
# Samples

What a reader of the metrics sees: a value for every series that exists. A counter with labels has a
series from its first use on; counters and histograms without labels have theirs from the start.
-/

namespace SpotCapacity

/-- What a sample shows: a number, or the counts of a histogram up to each of its bounds. -/
inductive SampleValue where
  | number (value : Double)
  | buckets (counts : List Nat)
  deriving DecidableEq, Repr

/-- A sample: the name of its metric, its labels in the order of their names, and what it shows. -/
structure Sample where
  name : String
  labels : List (String × String)
  value : SampleValue
  deriving DecidableEq, Repr

namespace Sample

/-- The start of the names of all metrics. -/
def nameSpace : String := "spot_rescheduler_"

def number (name : String) (labels : List (String × String)) (value : Double) : Sample :=
  ⟨nameSpace ++ name, labels, .number value⟩

def count (name : String) (labels : List (String × String)) (n : Nat) : Sample :=
  number name labels (Double.round (n : Rat))

end Sample

def NodeGauge.name : NodeGauge → String
  | .requestedCpu => "node_requested_cpu_millicores"
  | .freeCpu => "node_free_cpu_millicores"
  | .pods => "node_pods"

def GaugeSeries.sample (series : GaugeSeries) (value : Double) : Sample :=
  match series with
  | .nodes nodeClass => .number "nodes" [("node_class", nodeClass.name)] value
  | .ofNode gauge node nodeClass =>
    .number gauge.name [("node", node), ("node_class", nodeClass.name)] value

def Histogram.samples (name : String) (histogram : Histogram) : List Sample :=
  [⟨Sample.nameSpace ++ name ++ "_bucket", [], .buckets histogram.cumulative⟩,
   .count (name ++ "_count") [] histogram.count, .number (name ++ "_sum") [] histogram.sum]

namespace Exporter

/-- The counter of builds of a result; it has no series before its first build. -/
def buildSamples (result : String) (n : Nat) : List Sample :=
  if n = 0 then [] else [.count "node_map_builds_total" [("result", result)] n]

/-- The labels of the program, known once the server was started. -/
def infoLabels (exporter : Exporter) : List (String × String) :=
  if exporter.started.isEmpty then [] else [("version", programVersion)]

def samples (exporter : Exporter) : List Sample :=
  [.count "info" exporter.infoLabels 1] ++
    exporter.gauges.map (fun (series, value) => series.sample value) ++
    buildSamples "success" exporter.successes ++ buildSamples "failure" exporter.failures ++
    exporter.durations.samples "node_map_build_duration_seconds" ++
    [.count "rate_limit_delays_total" [] exporter.delays]

end Exporter

end SpotCapacity
