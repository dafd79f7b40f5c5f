import SpotCapacity.Proofs.Metrics.Withdrawal

/-!
# The last call decides

The exporter replaces what it shows by difference: it assigns the series of the new map and removes
those that it remembers and that the new map lacks. What is shown after any updates and clearings is
nevertheless what the last of them alone asks for (`Exporter.shows_last_call`): the last entry of each
node in each class of the map, and the number of entries of each class. Nodes may come and go, change
their class, be in both classes or more than once in one.
-/

namespace SpotCapacity

namespace NodeInfo

/-- Whether an entry is shown under a name. -/
def IsNamed (name : String) (info : NodeInfo) : Prop := info.node.name = .ok (some name)

instance (name : String) (info : NodeInfo) : Decidable (info.IsNamed name) :=
  inferInstanceAs (Decidable (_ = _))

/-- The series of one entry, read backwards, have the amounts of the entry under its name. -/
theorem lookup_series {nodeClass : NodeClass} {info : NodeInfo} {own : String}
    (named : info.IsNamed own) (gauge : NodeGauge) (name : String) (ofClass : NodeClass) :
    (info.series nodeClass).reverse.lookup (.ofNode gauge name ofClass) =
      if info.IsNamed name ∧ nodeClass = ofClass then some (info.amount gauge) else none := by
  have shown : info.IsNamed name ↔ own = name := by
    unfold IsNamed at *
    rw [named]
    simp
  rw [series, named]
  by_cases same : info.IsNamed name ∧ nodeClass = ofClass
  · obtain ⟨here, rfl⟩ := same
    obtain rfl := shown.mp here
    cases gauge <;> simp [NodeGauge.all, List.lookup_cons, SpotCapacity.shown, here, beq_eq_decide]
  · rw [if_neg same, List.lookup_eq_none_iff]
    intro entry member
    obtain ⟨other, -, rfl⟩ := List.mem_map.mp (List.mem_reverse.mp member)
    simp only [bne_iff_ne, ne_eq, GaugeSeries.ofNode.injEq, SpotCapacity.shown, not_and]
    exact fun _ names classes => same ⟨shown.mpr names.symm, classes.symm⟩

/-- Among the series of entries of a class, a node has those of the last entry with its name. -/
theorem lookup_series_entries {nodeClass : NodeClass} {infos : List NodeInfo}
    (named : ∀ info ∈ infos, ∃ own, info.IsNamed own) (gauge : NodeGauge) (name : String)
    (ofClass : NodeClass) :
    (infos.flatMap (series nodeClass)).reverse.lookup (.ofNode gauge name ofClass) =
      if nodeClass = ofClass then
        (infos.reverse.find? fun info => info.IsNamed name).map fun info => info.amount gauge
      else none := by
  induction infos using List.reverseRecOn with
  | nil => simp
  | append_singleton infos last ih =>
      obtain ⟨own, here⟩ := named last (List.mem_append_right _ List.mem_cons_self)
      have earlier := ih fun info member => named info (List.mem_append_left _ member)
      rw [List.flatMap_append, List.reverse_append, List.lookup_append, earlier,
        List.flatMap_singleton, lookup_series here, List.reverse_concat, List.find?_cons]
      by_cases same : nodeClass = ofClass
      · by_cases this : last.IsNamed name
        · simp [same, this]
        · simp [same, this]
      · simp [same]

end NodeInfo

namespace NodeMap

/-- All nodes of a map have names, which need not be different, and all its amounts fit a double. -/
structure Exportable (map : NodeMap) : Prop where
  named : ∀ info ∈ map.spot ++ map.onDemand, ∃ name, info.IsNamed name
  fits : map.Fits

def entries (map : NodeMap) : NodeClass → List NodeInfo
  | .spot => map.spot
  | .onDemand => map.onDemand
  | .none => []

/-- The amount that a map gives a series, if it gives one: the number of entries of a class, or the
amount of the last entry of a node in its class. -/
def amount? (map : NodeMap) : GaugeSeries → Option Int
  | .nodes nodeClass => if nodeClass = .none then none else some (map.entries nodeClass).length
  | .ofNode gauge name nodeClass =>
    ((map.entries nodeClass).reverse.find? fun info => info.IsNamed name).map
      fun info => info.amount gauge

variable {map : NodeMap}

/-- Nodes that have names are remembered by them. -/
theorem some_of_mem_keys (named : ∀ info ∈ map.spot ++ map.onDemand, ∃ name, info.IsNamed name)
    {key : NodeKey} (member : key ∈ map.keys) : ∃ name, key.1 = some name := by
  obtain ⟨infos, listed, info, inside, here⟩ := mem_keys_iff.mp member
  obtain ⟨name, there⟩ := named info (mem_of_byClass listed inside)
  exact ⟨name, Except.ok.inj (here.symm.trans there)⟩

namespace Exportable

theorem each (exportable : map.Exportable) :
    ∀ info ∈ map.spot ++ map.onDemand, ∃ name, info.node.name = .ok name :=
  fun info member => (exportable.named info member).imp' some fun _ here => here

/-- A map that can be exported can be shown. -/
theorem showable (exportable : map.Exportable) : map.Showable :=
  ⟨exportable.each, exportable.fits⟩

/-- The series of a map, read backwards, have the amounts that the map gives them. -/
theorem lookup_series (exportable : map.Exportable) (series : GaugeSeries) :
    map.series.reverse.lookup series = map.amount? series := by
  have spot := fun info member => exportable.named info (List.mem_append_left _ member)
  have onDemand := fun info member => exportable.named info (List.mem_append_right _ member)
  have whole : map.series.reverse =
      (map.onDemand.flatMap (NodeInfo.series .onDemand)).reverse ++
        ((.nodes .onDemand, (map.onDemand.length : Int)) ::
          ((map.spot.flatMap (NodeInfo.series .spot)).reverse ++
            [(.nodes .spot, (map.spot.length : Int))])) := by
    simp [NodeMap.series, byClass]
  rw [whole]
  cases series with
  | nodes nodeClass =>
      have ofNodes : ∀ (infos : List NodeInfo) ofClass,
          (infos.flatMap (NodeInfo.series ofClass)).reverse.lookup (.nodes nodeClass) = none := by
        intro infos ofClass
        rw [List.lookup_eq_none_iff]
        intro entry member
        obtain ⟨info, -, inside⟩ := List.mem_flatMap.mp (List.mem_reverse.mp member)
        obtain ⟨name, gauge, -, rfl⟩ := NodeInfo.mem_series_iff.mp inside
        simp
      cases nodeClass <;>
        simp [List.lookup_append, List.lookup_cons, ofNodes, amount?, entries, beq_eq_decide]
  | ofNode gauge name nodeClass =>
      have missed : ∀ ofClass, (GaugeSeries.ofNode gauge name nodeClass == .nodes ofClass) = false := by
        intro ofClass
        simp only [beq_eq_false_iff_ne, ne_eq, reduceCtorEq, not_false_eq_true]
      rw [List.lookup_append, NodeInfo.lookup_series_entries onDemand, List.lookup_cons, missed,
        List.lookup_append, NodeInfo.lookup_series_entries spot, List.lookup_cons, missed]
      cases nodeClass <;> simp [amount?, entries]

/-- The amount that a map has for a series is one that it shows. -/
theorem mem_series_of_amount? (exportable : map.Exportable) {series : GaugeSeries} {n : Int}
    (asked : map.amount? series = some n) : (series, n) ∈ map.series := by
  rw [← exportable.lookup_series] at asked
  obtain ⟨before, after, whole, -⟩ := List.lookup_eq_some_iff.mp asked
  rw [← List.mem_reverse, whole]
  simp

/-- The series that a map gives an amount are those of its classes and of its nodes. -/
theorem exists_mem_series_iff (exportable : map.Exportable) {series : GaugeSeries} :
    (∃ n, (series, n) ∈ map.series) ↔ (map.amount? series).isSome := by
  constructor
  · rintro ⟨n, shown⟩
    rw [← exportable.lookup_series]
    cases found : map.series.reverse.lookup series with
    | some m => rfl
    | none =>
        have missed := List.lookup_eq_none_iff.mp found _ (List.mem_reverse.mpr shown)
        simp at missed
  · intro found
    obtain ⟨n, asked⟩ := Option.isSome_iff_exists.mp found
    exact ⟨n, exportable.mem_series_of_amount? asked⟩

end Exportable

end NodeMap

namespace Exporter

/-- The amount that a call asks to be shown in a series, if the series is to be there at all. -/
def Call.amount? : Call → GaugeSeries → Option Int
  | .update map, series => map.amount? series
  | .clear, _ => none

private theorem Call.isSome_amount?_ofNode {call : Call} {gauge : NodeGauge} {name : String}
    {nodeClass : NodeClass} :
    (call.amount? (.ofNode gauge name nodeClass)).isSome ↔
      ∃ map, call = .update map ∧ ∃ info ∈ map.entries nodeClass, info.IsNamed name := by
  cases call with
  | clear => simp [amount?]
  | update map => simp [amount?, NodeMap.amount?]

private theorem Call.isSome_amount?_nodes {call : Call} {nodeClass : NodeClass} :
    (call.amount? (.nodes nodeClass)).isSome ↔ nodeClass ≠ .none ∧ ∃ map, call = .update map := by
  cases call with
  | clear => simp [amount?]
  | update map => cases nodeClass <;> simp [amount?, NodeMap.amount?]

private theorem update_published (exporter : Exporter) (map : NodeMap) :
    (exporter.update map).2.published = map.keys ∨
      (exporter.update map).2.published = exporter.published := by
  rcases taken : exporter.gauges.take (exporter.updateSteps map) with ⟨fault | done, gauges⟩
  · exact .inr (by simp only [update, taken])
  · exact .inl (by simp only [update, taken])

/-- Nodes that are remembered have names, when all nodes of all maps have. -/
theorem some_of_mem_published {port : Int} {history : List Call}
    (named : ∀ map, .update map ∈ history →
      ∀ info ∈ map.spot ++ map.onDemand, ∃ name, info.IsNamed name) :
    ∀ key ∈ ((new port).after history).published, ∃ name, key.1 = some name := by
  induction history using List.reverseRecOn with
  | nil => exact fun key none => absurd none List.not_mem_nil
  | append_singleton history call ih =>
      have earlier := ih fun map member => named map (List.mem_append_left _ member)
      intro key member
      rw [after_concat] at member
      cases call with
      | clear => cases member
      | update map =>
          have last := named map (List.mem_append_right _ List.mem_cons_self)
          rcases update_published ((new port).after history) map with shown | kept
          · rw [perform, shown] at member
            exact NodeMap.some_of_mem_keys last member
          · rw [perform, kept] at member
            exact earlier key member

section

variable {exporter : Exporter} {map : NodeMap} {series : GaugeSeries} {n : Int}
  (remembered : ∀ key ∈ exporter.published, ∃ name, key.1 = some name)

include remembered

/-- A series that the next map asks for is not removed. -/
theorem not_mem_gone (shown : map.Exportable) (asked : map.amount? series = some n) :
    series ∉ GaugeSeries.ofKeys (exporter.gone map) := by
  intro removed
  obtain ⟨⟨known, nodeClass⟩, gone, gauge, rfl⟩ := GaugeSeries.mem_ofKeys_iff.mp removed
  obtain ⟨old, left⟩ := List.mem_filter.mp gone
  obtain ⟨name, rfl⟩ : ∃ name, known = some name := remembered _ old
  have inMap := NodeMap.ofNode_mem_ofKeys_iff.mpr
    (shown.exists_mem_series_iff.mpr (Option.isSome_of_eq_some asked))
  obtain ⟨⟨other, ofClass⟩, member, ofGauge, same⟩ := GaugeSeries.mem_ofKeys_iff.mp inMap
  obtain ⟨text, rfl⟩ : ∃ text, other = some text := NodeMap.some_of_mem_keys shown.named member
  obtain ⟨-, rfl, rfl⟩ := GaugeSeries.ofNode.inj same
  have absent : (some name, nodeClass) ∉ map.keys := by simpa using left
  exact absent member

/-- A series that the next map asks for shows what the map gives it. -/
theorem lookup_update_of_amount? (shown : map.Exportable) (asked : map.amount? series = some n) :
    (exporter.update map).2.gauges.lookup series = Double.ofInt? n := by
  obtain ⟨value, fit⟩ : ∃ value, Double.ofInt? n = some value :=
    shown.fits _ (shown.mem_series_of_amount? asked)
  rw [update_assigns _ shown.each shown.fits]
  dsimp only
  rw [Gauges.lookup_removeAll, if_neg (not_mem_gone remembered shown asked),
    Gauges.lookup_assignAll, shown.lookup_series, asked]
  simp [fit]

end

section

variable {port : Int} {history : List Call} {map : NodeMap}
  (exportable : ∀ map, .update map ∈ history → map.Exportable)

include exportable

/-- Nothing that is exported is forgotten. -/
theorem mem_published_of_has {gauge : NodeGauge} {name : String} {nodeClass : NodeClass}
    (exported : ((new port).after history).gauges.Has (.ofNode gauge name nodeClass)) :
    .ofNode gauge name nodeClass ∈ GaugeSeries.ofKeys ((new port).after history).published := by
  by_contra unknown
  obtain ⟨before, map, later, rfl, stops, -⟩ :=
    (forgets_after_iff port history).mp ⟨exported, unknown⟩
  exact stops (exportable map (List.mem_append_right _ List.mem_cons_self)).showable

/-- No count is shown of the nodes that are of no class. -/
theorem not_has_nodes_none : ¬ ((new port).after history).gauges.Has (.nodes .none) := by
  induction history using List.reverseRecOn with
  | nil => simp [after, new, Gauges.Has]
  | append_singleton history call ih =>
      obtain ⟨earlier, last⟩ : (∀ map, .update map ∈ history → map.Exportable) ∧
          ∀ map, call = .update map → map.Exportable :=
        ⟨fun map member => exportable map (List.mem_append_left _ member), fun map same =>
          exportable map (List.mem_append_right _ (List.mem_singleton.mpr same.symm))⟩
      rw [after_concat]
      cases call with
      | clear =>
          intro exported
          exact ih earlier (has_clear_iff.mp exported).1.1
      | update map =>
          have shown := last map rfl
          have absent : map.amount? (.nodes .none) = none := rfl
          have before : ((new port).after history).gauges.lookup (.nodes .none) = none :=
            Option.not_isSome_iff_eq_none.mp (ih earlier)
          rw [perform, update_assigns _ shown.each shown.fits, Gauges.has_removeAll, Gauges.Has,
            Gauges.lookup_assignAll, shown.lookup_series, absent, before]
          simp

/-- A series that is exported and not asked for by the next map is removed. -/
theorem mem_gone_of_has (shown : map.Exportable) {series : GaugeSeries}
    (exported : ((new port).after history).gauges.Has series) (absent : map.amount? series = none) :
    series ∈ GaugeSeries.ofKeys (((new port).after history).gone map) := by
  cases series with
  | nodes nodeClass =>
      by_cases classed : nodeClass = .none
      · subst classed
        exact absurd exported (not_has_nodes_none exportable)
      · simp [NodeMap.amount?, classed] at absent
  | ofNode gauge name nodeClass =>
      refine mem_ofKeys_gone (mem_published_of_has exportable exported) fun n also => ?_
      have asked := shown.exists_mem_series_iff.mp ⟨n, also⟩
      rw [absent] at asked
      cases asked

/-- Each series shows what the next map asks for, and the others are gone. -/
theorem lookup_update (shown : map.Exportable) (series : GaugeSeries) :
    (((new port).after history).update map).2.gauges.lookup series =
      (map.amount? series).bind Double.ofInt? := by
  cases asked : map.amount? series with
  | some n =>
      have named : ∀ map, .update map ∈ history →
          ∀ info ∈ map.spot ++ map.onDemand, ∃ name, info.IsNamed name :=
        fun map member => (exportable map member).named
      exact lookup_update_of_amount? (some_of_mem_published named) shown asked
  | none =>
      rw [update_assigns _ shown.each shown.fits]
      dsimp only
      rw [Gauges.lookup_removeAll, Gauges.lookup_assignAll, shown.lookup_series, asked]
      split
      · rfl
      · rename_i kept
        have absent : ¬ ((new port).after history).gauges.Has series := fun exported =>
          kept (mem_gone_of_has exportable shown exported asked)
        exact Option.not_isSome_iff_eq_none.mp absent

end

/-- Neither an update nor a clearing counts builds, their durations or delays. -/
theorem perform_counters (exporter : Exporter) (call : Call) :
    (exporter.perform call).successes = exporter.successes ∧
      (exporter.perform call).failures = exporter.failures ∧
      (exporter.perform call).durations = exporter.durations ∧
      (exporter.perform call).delays = exporter.delays := by
  cases call with
  | clear => exact ⟨rfl, rfl, rfl, rfl⟩
  | update map =>
      rcases taken : exporter.gauges.take (exporter.updateSteps map) with ⟨fault | done, gauges⟩
      all_goals simp only [perform, update, taken, and_self]

/-- After an update or a clearing, each series has the amount of this last call. -/
theorem lookup_perform {port : Int} {history : List Call} {call : Call}
    (exportable : ∀ map, .update map ∈ history ++ [call] → map.Exportable) (series : GaugeSeries) :
    ((new port).after (history ++ [call])).gauges.lookup series =
      (call.amount? series).bind Double.ofInt? := by
  have earlier : ∀ map, .update map ∈ history → map.Exportable :=
    fun map member => exportable map (List.mem_append_left _ member)
  rw [after_concat]
  cases call with
  | clear =>
      have cleared : ((new port).after history).clear.gauges = [] :=
        clear_after_eq_nil port fun map member => (earlier map member).showable
      rw [perform, cleared]
      rfl
  | update map =>
      exact lookup_update earlier (exportable map (List.mem_append_right _ List.mem_cons_self)) series

/-- After an update or a clearing, the series of this last call are there, and no others. -/
theorem has_perform {port : Int} {history : List Call} {call : Call}
    (exportable : ∀ map, .update map ∈ history ++ [call] → map.Exportable) (series : GaugeSeries) :
    ((new port).after (history ++ [call])).gauges.Has series ↔ (call.amount? series).isSome := by
  rw [Gauges.Has, lookup_perform exportable]
  cases call with
  | clear => rfl
  | update map =>
      have shown := exportable map (List.mem_append_right _ List.mem_cons_self)
      cases asked : map.amount? series with
      | none => simp [Call.amount?, asked]
      | some n =>
          obtain ⟨value, fit⟩ := shown.fits _ (shown.mem_series_of_amount? asked)
          simp [Call.amount?, asked, show Double.ofInt? n = some value from fit]

/-- An update leaves what its steps leave. -/
theorem update_gauges (exporter : Exporter) (map : NodeMap) :
    (exporter.update map).2.gauges = (exporter.gauges.take (exporter.updateSteps map)).2 := by
  rcases taken : exporter.gauges.take (exporter.updateSteps map) with ⟨fault | done, gauges⟩
  all_goals simp only [update, taken]

/-- No series is there twice. -/
theorem nodup_after (port : Int) (history : List Call) :
    (((new port).after history).gauges.map Prod.fst).Nodup := by
  induction history using List.reverseRecOn with
  | nil => exact List.nodup_nil
  | append_singleton history call ih =>
      rw [after_concat]
      cases call with
      | clear => exact Gauges.nodup_changeAll ih _
      | update map =>
          rw [perform, update_gauges, Gauges.take_snd]
          exact Gauges.nodup_changeAll ih _

/-- **The last call decides.** After any updates and clearings, of maps whose nodes have names and whose
amounts fit a double, a series shows the amount that the last call gives it, as a double, and is absent
if that call gives it none; the calls before make no difference. So the series of nodes are those of the
nodes and classes in the last map, once each, and those of the classes are there exactly after an update.
A call comes to its end, and leaves all counts of builds and delays as they were. -/
theorem shows_last_call (port : Int) (history : List Call) (call : Call)
    (exportable : ∀ map, .update map ∈ history ++ [call] → map.Exportable) :
    let before := (new port).after history
    let exporter := (new port).after (history ++ [call])
    (∀ series, exporter.gauges.lookup series = (call.amount? series).bind Double.ofInt?) ∧
      (exporter.gauges.map Prod.fst).Nodup ∧
      (∀ gauge name nodeClass,
        exporter.gauges.Has (.ofNode gauge name nodeClass) ↔
          ∃ map, call = .update map ∧ ∃ info ∈ map.entries nodeClass, info.IsNamed name) ∧
      (∀ nodeClass, exporter.gauges.Has (.nodes nodeClass) ↔
        nodeClass ≠ .none ∧ ∃ map, call = .update map) ∧
      (∀ map, call = .update map → (before.update map).1 = .ok ()) ∧
      ∀ (other : Exporter),
        (other.perform call).successes = other.successes ∧
        (other.perform call).failures = other.failures ∧
        (other.perform call).durations = other.durations ∧
        (other.perform call).delays = other.delays := by
  intro before exporter
  have shows : ∀ series,
      exporter.gauges.lookup series = (call.amount? series).bind Double.ofInt? :=
    lookup_perform exportable
  have asked : ∀ series, exporter.gauges.Has series ↔ (call.amount? series).isSome :=
    has_perform exportable
  refine ⟨shows, nodup_after port _, ?_, ?_, ?_, fun other => other.perform_counters call⟩
  · exact fun gauge name nodeClass => (asked _).trans Call.isSome_amount?_ofNode
  · exact fun nodeClass => (asked _).trans Call.isSome_amount?_nodes
  · rintro map rfl
    have shown := exportable map (List.mem_append_right _ List.mem_cons_self)
    rw [update_assigns before shown.each shown.fits]

end Exporter

/-! ## A node in both classes

A node that is in a map three times, and one that has left before. -/

namespace TwinNode

def node : Node := Inventory.node "twin" "4" ["kubernetes.io/role=worker"]

def map : NodeMap := ⟨[⟨node, [], 300, 3700⟩], [⟨node, [], 100, 3900⟩, ⟨node, [], 200, 3800⟩]⟩

/-- The map before the twin came. -/
def earlier : NodeMap := ⟨[⟨Inventory.node "gone" "1" [], [], 500, 500⟩], []⟩

theorem exportable_of_fits {map : NodeMap}
    (named : ∀ info ∈ map.spot ++ map.onDemand, info.IsNamed "twin" ∨ info.IsNamed "gone")
    (fits : ∀ entry ∈ map.series, (Double.ofInt? entry.2).isSome = true) : map.Exportable where
  named := fun info member => (named info member).elim (⟨_, ·⟩) (⟨_, ·⟩)
  fits := fun entry member => Option.isSome_iff_exists.mp (fits entry member)

end TwinNode

/-- The last entry of the twin in each of its classes is shown, and the node that left is not. -/
theorem Exporter.shows_last_call_twinNode :
    let history : List Call := [.update TwinNode.earlier, .clear, .update TwinNode.earlier]
    let exporter := (new 9235).after (history ++ [.update TwinNode.map])
    (∀ map, .update map ∈ history ++ [.update TwinNode.map] → map.Exportable) ∧
      exporter.gauges.lookup (.ofNode .requestedCpu "twin" .onDemand) = Double.ofInt? 200 ∧
      exporter.gauges.lookup (.ofNode .requestedCpu "twin" .spot) = Double.ofInt? 300 ∧
      exporter.gauges.lookup (.nodes .onDemand) = Double.ofInt? 2 ∧
      exporter.gauges.lookup (.ofNode .pods "gone" .spot) = none := by
  intro history exporter
  have exportable : ∀ map, .update map ∈ history ++ [.update TwinNode.map] → map.Exportable := by
    have earlier : TwinNode.earlier.Exportable :=
      TwinNode.exportable_of_fits (by decide +kernel) (by decide +kernel)
    have last : TwinNode.map.Exportable :=
      TwinNode.exportable_of_fits (by decide +kernel) (by decide +kernel)
    simp [history, earlier, last]
  obtain ⟨shows, -⟩ := shows_last_call 9235 history (.update TwinNode.map) exportable
  have twice : TwinNode.map.amount? (.ofNode .requestedCpu "twin" .onDemand) = some 200 := by
    decide +kernel
  have once : TwinNode.map.amount? (.ofNode .requestedCpu "twin" .spot) = some 300 := by
    decide +kernel
  have count : TwinNode.map.amount? (.nodes .onDemand) = some 2 := by decide +kernel
  have gone : TwinNode.map.amount? (.ofNode .pods "gone" .spot) = none := by decide +kernel
  refine ⟨exportable, ?_, ?_, ?_, ?_⟩
  · rw [shows, Call.amount?, twice, Option.bind_some]
  · rw [shows, Call.amount?, once, Option.bind_some]
  · rw [shows, Call.amount?, count, Option.bind_some]
  · rw [shows, Call.amount?, gone, Option.bind_none]

end SpotCapacity
