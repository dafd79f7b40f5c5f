import SpotCapacity.Metrics.Exporter
import SpotCapacity.Proofs.Metrics.Gauge
import SpotCapacity.Proofs.Metrics.Histogram

/-!
# The exporter shows one map

An exporter that tracks a map shows the series of its nodes and classes, each once, with their amounts,
and no others; it remembers which nodes these are (`Exporter.Tracks`). Showing another map and removing
all series keep track, as long as the nodes of a map have names of their own and its amounts fit a
double (`Exporter.Tracks.update`, `Exporter.Tracks.clear`). The builds are counted apart from this, each
with its duration (`Exporter.Counts`).
-/

namespace SpotCapacity

namespace NodeMap

/-- All nodes of a map have names, and no two have the same name. -/
structure Named (map : NodeMap) : Prop where
  named : ∀ info ∈ map.spot ++ map.onDemand, ∃ name, info.node.name = .ok (some name)
  distinct : ((map.spot ++ map.onDemand).map fun info => info.node.name).Nodup

/-- All amounts that are shown of a map fit a double. -/
def Fits (map : NodeMap) : Prop :=
  ∀ entry ∈ map.series, ∃ value, Double.ofInt? entry.2 = some value

namespace Named

variable {map : NodeMap}

private theorem some_of_name (named : map.Named) {info : NodeInfo} {name : Option String}
    (member : info ∈ map.spot ++ map.onDemand) (here : info.node.name = .ok name) :
    ∃ text, name = some text := by
  obtain ⟨text, also⟩ := named.named info member
  exact ⟨text, Except.ok.inj (here.symm.trans also)⟩

/-- Nodes that are shown under one name are one node. -/
theorem eq_of_name (named : map.Named) {info other : NodeInfo} {name : Option String}
    (member : info ∈ map.spot ++ map.onDemand) (also : other ∈ map.spot ++ map.onDemand)
    (here : info.node.name = .ok name) (there : other.node.name = .ok name) : info = other :=
  List.inj_on_of_nodup_map named.distinct member also (here.trans there.symm)

/-- A map of named nodes shows each series with one amount. -/
theorem unique (named : map.Named) {series : GaugeSeries} {n m : Int}
    (shown : (series, n) ∈ map.series) (also : (series, m) ∈ map.series) : n = m := by
  obtain ⟨nodeClass, infos, listed, here⟩ := mem_series_iff.mp shown
  obtain ⟨otherClass, others, listed', there⟩ := mem_series_iff.mp also
  rcases here with same | ⟨info, member, name, gauge, here, same⟩ <;>
    rcases there with same' | ⟨other, member', name', gauge', there, same'⟩
  · cases same
    cases same'
    rw [byClass_unique listed listed']
  · cases same
    cases same'
  · cases same
    cases same'
  · obtain ⟨rfl, rfl⟩ := Prod.mk.inj same
    obtain ⟨same, rfl⟩ := Prod.mk.inj same'
    obtain ⟨rfl, names, rfl⟩ := GaugeSeries.ofNode.inj same
    have inside := mem_of_byClass listed member
    have inside' := mem_of_byClass listed' member'
    obtain ⟨text, rfl⟩ := named.some_of_name inside here
    obtain ⟨text', rfl⟩ := named.some_of_name inside' there
    obtain rfl : text = text' := names
    rw [named.eq_of_name inside inside' here there]

private theorem mem_keys (named : map.Named) {gauge : NodeGauge} {name : String} {nodeClass : NodeClass}
    {n : Int} (shown : (.ofNode gauge name nodeClass, n) ∈ map.series) :
    (some name, nodeClass) ∈ map.keys := by
  obtain ⟨ofClass, infos, listed, here⟩ := mem_series_iff.mp shown
  rcases here with same | ⟨info, member, name', gauge', here, same⟩
  · cases same
  · obtain ⟨series, -⟩ := Prod.mk.inj same
    obtain ⟨rfl, rfl, rfl⟩ := GaugeSeries.ofNode.inj series
    obtain ⟨text, rfl⟩ := named.some_of_name (mem_of_byClass listed member) here
    exact mem_keys_iff.mpr ⟨infos, listed, info, member, here⟩

/-- The amount of a series in a map is the one found last. -/
theorem lookup_series (named : map.Named) {series : GaugeSeries} {n : Int}
    (shown : (series, n) ∈ map.series) : map.series.reverse.lookup series = some n := by
  cases found : map.series.reverse.lookup series with
  | none =>
      have missed := List.lookup_eq_none_iff.mp found _ (List.mem_reverse.mpr shown)
      simp at missed
  | some m =>
      obtain ⟨before, after, whole, -⟩ := List.lookup_eq_some_iff.mp found
      have also : (series, m) ∈ map.series := by
        rw [← List.mem_reverse, whole]
        simp
      rw [named.unique also shown]

end Named

private theorem lookup_series_of_not_mem {map : NodeMap} {series : GaugeSeries}
    (absent : ∀ n, (series, n) ∉ map.series) : map.series.reverse.lookup series = none := by
  rw [List.lookup_eq_none_iff]
  rintro ⟨other, n⟩ member
  have different : series ≠ other := by
    rintro rfl
    exact absent n (List.mem_reverse.mp member)
  simpa using different

/-- The nodes of a map have all their series, and both classes have theirs. -/
theorem exists_mem_series {map : NodeMap} {name : Option String} {nodeClass : NodeClass}
    (member : (name, nodeClass) ∈ map.keys) (gauge : NodeGauge) :
    ∃ n, (.ofNode gauge (shown name) nodeClass, n) ∈ map.series := by
  obtain ⟨infos, listed, info, inside, here⟩ := mem_keys_iff.mp member
  exact ⟨_, mem_series_iff.mpr
    ⟨nodeClass, infos, listed, .inr ⟨info, inside, name, gauge, here, rfl⟩⟩⟩

private theorem exists_mem_series_nodes (map : NodeMap) {nodeClass : NodeClass}
    (classed : nodeClass ≠ .none) : ∃ n, (.nodes nodeClass, n) ∈ map.series := by
  have listed : ∃ infos, (nodeClass, infos) ∈ map.byClass := by
    cases nodeClass with
    | spot => exact ⟨map.spot, mem_byClass_iff.mpr (.inl ⟨rfl, rfl⟩)⟩
    | onDemand => exact ⟨map.onDemand, mem_byClass_iff.mpr (.inr ⟨rfl, rfl⟩)⟩
    | none => exact absurd rfl classed
  obtain ⟨infos, listed⟩ := listed
  exact ⟨_, mem_series_iff.mpr ⟨nodeClass, infos, listed, .inl rfl⟩⟩

end NodeMap

namespace Exporter

/-- An exporter shows the latest map, if there is one, and nothing else. -/
structure Exports (exporter : Exporter) (latest : Option NodeMap) : Prop where
  ofNode : ∀ gauge name nodeClass value,
    exporter.gauges.lookup (.ofNode gauge name nodeClass) = some value ↔
      ∃ map infos info, latest = some map ∧ (nodeClass, infos) ∈ map.byClass ∧ info ∈ infos ∧
        info.node.name = .ok (some name) ∧ Double.ofInt? (info.amount gauge) = some value
  nodes : ∀ nodeClass value, exporter.gauges.lookup (.nodes nodeClass) = some value ↔
    ∃ map infos, latest = some map ∧ (nodeClass, infos) ∈ map.byClass ∧
      Double.ofInt? infos.length = some value
  once : (exporter.gauges.map Prod.fst).Nodup
  absent : latest = none → exporter.gauges = []

/-- An exporter shows the series of the latest map and remembers its nodes. -/
structure Tracks (exporter : Exporter) (latest : Option NodeMap) : Prop where
  shows : ∀ series value, exporter.gauges.lookup series = some value ↔
    ∃ map n, latest = some map ∧ (series, n) ∈ map.series ∧ Double.ofInt? n = some value
  remembers : ∀ key, key ∈ exporter.published ↔ ∃ map, latest = some map ∧ key ∈ map.keys
  named : ∀ map, latest = some map → map.Named
  once : (exporter.gauges.map Prod.fst).Nodup

variable {exporter : Exporter} {latest : Option NodeMap}

/-- A new exporter shows no map. -/
theorem new_tracks (port : Int) : (new port).Tracks none where
  shows := by simp [new]
  remembers := by simp [new]
  named := by simp
  once := List.nodup_nil

/-- An exporter that follows a map exports its series and no others. -/
theorem Tracks.exports (tracks : exporter.Tracks latest) : exporter.Exports latest := by
  refine ⟨fun gauge name nodeClass value => ?_, fun nodeClass value => ?_, tracks.once, ?_⟩
  · rw [tracks.shows]
    constructor
    · rintro ⟨map, n, rfl, shown, fits⟩
      obtain ⟨ofClass, infos, listed, here⟩ := NodeMap.mem_series_iff.mp shown
      rcases here with same | ⟨info, member, name', gauge', here, same⟩
      · cases same
      · obtain ⟨series, rfl⟩ := Prod.mk.inj same
        obtain ⟨rfl, rfl, rfl⟩ := GaugeSeries.ofNode.inj series
        obtain ⟨text, rfl⟩ := (tracks.named map rfl).some_of_name
          (NodeMap.mem_of_byClass listed member) here
        exact ⟨map, infos, info, rfl, listed, member, here, fits⟩
    · rintro ⟨map, infos, info, rfl, listed, member, here, fits⟩
      refine ⟨map, _, rfl, NodeMap.mem_series_iff.mpr ?_, fits⟩
      exact ⟨nodeClass, infos, listed, .inr ⟨info, member, some name, gauge, here, rfl⟩⟩
  · rw [tracks.shows]
    constructor
    · rintro ⟨map, n, rfl, shown, fits⟩
      obtain ⟨ofClass, infos, listed, here⟩ := NodeMap.mem_series_iff.mp shown
      rcases here with same | ⟨info, member, name, gauge, here, same⟩
      · cases same
        exact ⟨map, infos, rfl, listed, fits⟩
      · cases same
    · rintro ⟨map, infos, rfl, listed, fits⟩
      refine ⟨map, _, rfl, NodeMap.mem_series_iff.mpr ?_, fits⟩
      exact ⟨nodeClass, infos, listed, .inl rfl⟩
  · rintro rfl
    cases whole : exporter.gauges with
    | nil => rfl
    | cons entry rest =>
        have shown : exporter.gauges.lookup entry.1 = some entry.2 := by
          rw [whole]
          exact List.lookup_cons_self
        obtain ⟨map, n, absent, -⟩ := (tracks.shows _ _).mp shown
        cases absent

/-- A series that is shown and not kept account of is the series of a class. -/
theorem Tracks.mem_ofKeys (tracks : exporter.Tracks latest) {series : GaugeSeries} {value : Double}
    (shown : exporter.gauges.lookup series = some value) :
    (∃ nodeClass, series = .nodes nodeClass ∧ nodeClass ≠ .none) ∨
      series ∈ GaugeSeries.ofKeys exporter.published := by
  obtain ⟨map, n, latest, shown, -⟩ := (tracks.shows _ _).mp shown
  obtain ⟨nodeClass, infos, listed, here⟩ := NodeMap.mem_series_iff.mp shown
  rcases here with same | ⟨info, member, name, gauge, here, same⟩
  · refine .inl ⟨nodeClass, (Prod.mk.inj same).1, ?_⟩
    rcases NodeMap.mem_byClass_iff.mp listed with ⟨rfl, -⟩ | ⟨rfl, -⟩ <;> decide
  · refine .inr (GaugeSeries.mem_ofKeys_iff.mpr ⟨(name, nodeClass), ?_, gauge, ?_⟩)
    · exact (tracks.remembers _).mpr
        ⟨map, latest, NodeMap.mem_keys_iff.mpr ⟨infos, listed, info, member, here⟩⟩
    · exact (Prod.mk.inj same).1

/-- Clearing an exporter removes the series of the nodes it remembers, and those of the classes. -/
theorem clear_gauges (exporter : Exporter) :
    exporter.clear.gauges =
      (Gauges.removeAll exporter.gauges (GaugeSeries.ofKeys exporter.published)).removeAll
        (NodeClass.all.map .nodes) := by
  unfold clear
  dsimp only
  rw [Gauges.changeAll, List.foldl_append]
  change Gauges.changeAll (Gauges.changeAll _ _) _ = _
  rw [GaugeSeries.changeAll_withdrawal, GaugeSeries.classWithdrawal]
  conv_rhs => rw [Gauges.removeAll, List.map_map]
  rfl

/-- A cleared exporter shows no map. -/
theorem Tracks.clear (tracks : exporter.Tracks latest) : exporter.clear.Tracks none := by
  have gone : ∀ series, exporter.clear.gauges.lookup series = none := by
    intro series
    rw [clear_gauges, Gauges.lookup_removeAll, Gauges.lookup_removeAll]
    split
    · rfl
    · split
      · rfl
      · rename_i classes kept
        cases shown : exporter.gauges.lookup series with
        | none => rfl
        | some value =>
            rcases tracks.mem_ofKeys shown with ⟨nodeClass, rfl, -⟩ | member
            · refine absurd (List.mem_map_of_mem ?_) classes
              cases nodeClass <;> decide
            · exact absurd member kept
  refine ⟨fun series value => ?_, fun key => ?_, fun map absent => ?_, ?_⟩
  · rw [gone series]
    simp
  · simp [Exporter.clear]
  · cases absent
  · exact Gauges.nodup_changeAll tracks.once _

/-- Showing a map whose nodes have names and whose amounts fit a double assigns its series, and removes
those of the nodes that left. -/
theorem update_assigns (exporter : Exporter) {map : NodeMap}
    (each : ∀ info ∈ map.spot ++ map.onDemand, ∃ name, info.node.name = .ok name)
    (fits : map.Fits) :
    exporter.update map = (.ok (), { exporter with
      gauges := Gauges.removeAll (map.series.foldl Gauges.assign exporter.gauges)
        (GaugeSeries.ofKeys (exporter.gone map))
      published := map.keys }) := by
  have steps : exporter.gauges.take (exporter.updateSteps map) =
      (.ok (), Gauges.removeAll (map.series.foldl Gauges.assign exporter.gauges)
        (GaugeSeries.ofKeys (exporter.gone map))) := by
    rw [updateSteps, NodeMap.publication_eq each, Gauges.take_assign exporter.gauges fits,
      Gauges.take_ok, GaugeSeries.changeAll_withdrawal]
  rw [update, steps]

/-- Showing a map whose amounts fit a double does not fail. -/
theorem update_eq (exporter : Exporter) {map : NodeMap} (named : map.Named) (fits : map.Fits) :
    exporter.update map = (.ok (), { exporter with
      gauges := Gauges.removeAll (map.series.foldl Gauges.assign exporter.gauges)
        (GaugeSeries.ofKeys (exporter.gone map))
      published := map.keys }) :=
  exporter.update_assigns
    (fun info member => (named.named info member).imp' some fun _ here => here) fits

/-- A series that is removed belongs to a node that is not in the map. -/
theorem Tracks.not_mem_of_gone (tracks : exporter.Tracks latest) {map : NodeMap}
    (named : map.Named) {series : GaugeSeries}
    (removed : series ∈ GaugeSeries.ofKeys (exporter.gone map)) (n : Int) :
    (series, n) ∉ map.series := by
  intro shown
  obtain ⟨⟨name, nodeClass⟩, gone, gauge, rfl⟩ := GaugeSeries.mem_ofKeys_iff.mp removed
  obtain ⟨old, absent⟩ := List.mem_filter.mp gone
  obtain ⟨before, latest, member⟩ := (tracks.remembers _).mp old
  obtain ⟨infos, listed, info, inside, here⟩ := NodeMap.mem_keys_iff.mp member
  obtain ⟨text, rfl⟩ : ∃ text, name = some text :=
    (tracks.named before latest).some_of_name (NodeMap.mem_of_byClass listed inside) here
  have still : (some text, nodeClass) ∈ map.keys := named.mem_keys shown
  simp [still] at absent

/-- A series that is remembered is assigned or removed. -/
theorem mem_ofKeys_gone {map : NodeMap} {series : GaugeSeries}
    (remembered : series ∈ GaugeSeries.ofKeys exporter.published)
    (absent : ∀ n, (series, n) ∉ map.series) :
    series ∈ GaugeSeries.ofKeys (exporter.gone map) := by
  obtain ⟨key, old, gauge, rfl⟩ := GaugeSeries.mem_ofKeys_iff.mp remembered
  refine GaugeSeries.mem_ofKeys_iff.mpr ⟨key, List.mem_filter.mpr ⟨old, ?_⟩, gauge, rfl⟩
  have left : key ∉ map.keys := by
    intro still
    obtain ⟨n, also⟩ := NodeMap.exists_mem_series still gauge
    exact absent n also
  simpa using left

/-- A series that was shown is assigned or removed. -/
theorem Tracks.gone_of_not_mem (tracks : exporter.Tracks latest) {map : NodeMap}
    {series : GaugeSeries} {value : Double} (shown : exporter.gauges.lookup series = some value)
    (absent : ∀ n, (series, n) ∉ map.series) :
    series ∈ GaugeSeries.ofKeys (exporter.gone map) := by
  rcases tracks.mem_ofKeys shown with ⟨nodeClass, rfl, classed⟩ | kept
  · obtain ⟨n, also⟩ := map.exists_mem_series_nodes classed
    exact absurd also (absent n)
  · exact mem_ofKeys_gone kept absent

/-- An update that succeeds makes the exporter follow its map. -/
theorem Tracks.update (tracks : exporter.Tracks latest) {map : NodeMap} (named : map.Named)
    (fits : map.Fits) : (exporter.update map).2.Tracks (some map) := by
  rw [exporter.update_eq named fits]
  refine ⟨fun series value => ?_, fun key => ?_, ?_, ?_⟩
  · dsimp only
    rw [Gauges.lookup_removeAll, Gauges.lookup_assignAll]
    -- A series of the map is assigned and not removed; any other one is not assigned, and is
    -- removed if it was there.
    by_cases shown : ∃ n, (series, n) ∈ map.series
    · obtain ⟨n, shown⟩ := shown
      have kept : series ∉ GaugeSeries.ofKeys (exporter.gone map) :=
        fun removed => tracks.not_mem_of_gone named removed n shown
      obtain ⟨amount, fit⟩ : ∃ amount, Double.ofInt? n = some amount := fits _ shown
      rw [if_neg kept, named.lookup_series shown, Option.map_some, Option.some_or, fit,
        Option.getD_some, ← fit]
      constructor
      · exact fun same => ⟨map, n, rfl, shown, same⟩
      · rintro ⟨_, m, here, also, same⟩
        cases here
        rw [← same, named.unique also shown]
    · have absent : ∀ n, (series, n) ∉ map.series := fun n here => shown ⟨n, here⟩
      rw [NodeMap.lookup_series_of_not_mem absent, Option.map_none, Option.none_or]
      constructor
      · intro before
        split at before
        · cases before
        · rename_i kept
          exact absurd (tracks.gone_of_not_mem before absent) kept
      · rintro ⟨_, n, here, also, -⟩
        cases here
        exact absurd also (absent n)
  · simp
  · intro other same
    exact Option.some.inj same ▸ named
  · exact Gauges.nodup_changeAll (Gauges.nodup_assignAll tracks.once _) _

/-- Counting delays does not change what is shown. -/
theorem Tracks.recordDelays (tracks : exporter.Tracks latest) (count : Nat) :
    (exporter.recordDelays count).Tracks latest :=
  ⟨tracks.shows, tracks.remembers, tracks.named, tracks.once⟩

/-- Recording a build does not change what is shown. -/
theorem Tracks.recordBuild (tracks : exporter.Tracks latest) (success : Bool) (duration : Double) :
    (exporter.recordBuild success duration).Tracks latest :=
  ⟨tracks.shows, tracks.remembers, tracks.named, tracks.once⟩

/-- An exporter has counted builds by their result, and each of them with its duration. -/
structure Counts (exporter : Exporter) (built failed : Nat) : Prop where
  successes : exporter.successes = built
  failures : exporter.failures = failed
  full : exporter.durations.Full
  observed : exporter.durations.count = built + failed

/-- A new exporter has counted nothing. -/
theorem new_counts (port : Int) : (new port).Counts 0 0 := by
  have none : Histogram.empty.count = 0 := by decide
  exact ⟨rfl, rfl, Histogram.empty_full, none⟩

namespace Counts

variable {built failed : Nat}

theorem recordDelays (counts : exporter.Counts built failed) (count : Nat) :
    (exporter.recordDelays count).Counts built failed :=
  ⟨counts.successes, counts.failures, counts.full, counts.observed⟩

theorem clear (counts : exporter.Counts built failed) :
    exporter.clear.Counts built failed :=
  ⟨counts.successes, counts.failures, counts.full, counts.observed⟩

theorem update (counts : exporter.Counts built failed) {map : NodeMap} (named : map.Named)
    (fits : map.Fits) : (exporter.update map).2.Counts built failed := by
  rw [exporter.update_eq named fits]
  exact ⟨counts.successes, counts.failures, counts.full, counts.observed⟩

/-- A recorded build is counted once, by its outcome. -/
theorem recordBuild (counts : exporter.Counts built failed) (success : Bool)
    {duration : Double} (numeric : duration ≠ .nan) :
    (exporter.recordBuild success duration).Counts
      (built + if success then 1 else 0) (failed + if success then 0 else 1) := by
  have counted : (exporter.durations.observe duration).count = built + failed + 1 :=
    (Histogram.count_observe counts.full numeric).trans (congrArg (· + 1) counts.observed)
  refine ⟨congrArg (· + _) counts.successes, congrArg (· + _) counts.failures,
    Histogram.observe_full counts.full duration, counted.trans ?_⟩
  cases success
  · rfl
  · exact Nat.add_right_comm built failed 1

end Counts

end Exporter

end SpotCapacity
