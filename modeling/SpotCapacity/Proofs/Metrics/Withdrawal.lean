import SpotCapacity.Cluster.Inventory
import SpotCapacity.Proofs.Metrics.Publication

/-!
# What clearing leaves

After any updates and clearings, a series that is exported although the exporter does not remember its
node was begun by an update that stopped half-way, and no later update that succeeded showed the node
again (`Exporter.forgets_after_iff`). These series, and no others, are still exported right after the
exporter is cleared (`Exporter.has_after_clear_iff`), so that nothing is left when every update succeeds.
-/

namespace SpotCapacity

namespace Exporter

/-- A call that changes what is exported of node maps. -/
inductive Call where
  | update (map : NodeMap)
  | clear

def perform (exporter : Exporter) : Call → Exporter
  | .update map => (exporter.update map).2
  | .clear => exporter.clear

def after (exporter : Exporter) (calls : List Call) : Exporter := calls.foldl perform exporter

/-- The last of some calls is made after the others. -/
theorem after_concat (exporter : Exporter) (calls : List Call) (call : Call) :
    exporter.after (calls ++ [call]) = (exporter.after calls).perform call :=
  List.foldl_concat ..

/-- A series of a node is exported and will not be removed. -/
def Forgets (exporter : Exporter) (series : GaugeSeries) : Prop :=
  exporter.gauges.Has series ∧ series ∉ GaugeSeries.ofKeys exporter.published

variable {exporter : Exporter} {map : NodeMap} {gauge : NodeGauge} {name : String}
  {nodeClass : NodeClass}

private theorem has_taken (gauges : Gauges) (map : NodeMap) (series : GaugeSeries) :
    (gauges.changeAll (GaugeStep.taken map.publication)).Has series ↔
      gauges.Has series ∨ series ∈ map.begun := by
  apply Gauges.has_changeAll
  intro change member removed same
  subst same
  exact NodeMap.publication_removes_nothing removed (GaugeStep.ok_mem_of_mem_taken member)

/-- An update that succeeds remembers the nodes of its map again. -/
theorem forgets_update_of_showable (showable : map.Showable) :
    (exporter.update map).2.Forgets (.ofNode gauge name nodeClass) ↔
      exporter.Forgets (.ofNode gauge name nodeClass) ∧
        .ofNode gauge name nodeClass ∉ GaugeSeries.ofKeys map.keys := by
  rw [exporter.update_of_showable showable]
  unfold Forgets
  dsimp only
  rw [Gauges.has_removeAll, has_taken, NodeMap.mem_begun_iff_of_showable showable,
    ← NodeMap.ofNode_mem_ofKeys_iff]
  -- A series of no node in the map is removed exactly if it was remembered.
  by_cases shown : .ofNode gauge name nodeClass ∈ GaugeSeries.ofKeys map.keys
  · simp only [shown, not_true_eq_false, and_false]
  · have gone : .ofNode gauge name nodeClass ∈ GaugeSeries.ofKeys (exporter.gone map) ↔
        .ofNode gauge name nodeClass ∈ GaugeSeries.ofKeys exporter.published := by
      rw [GaugeSeries.mem_ofKeys_iff, GaugeSeries.mem_ofKeys_iff]
      constructor
      · intro removed
        obtain ⟨key, member, ofGauge, same⟩ := removed
        exact ⟨key, List.mem_of_mem_filter member, ofGauge, same⟩
      · intro remembered
        obtain ⟨key, member, ofGauge, same⟩ := remembered
        refine ⟨key, List.mem_filter.mpr ⟨member, ?_⟩, ofGauge, same⟩
        have absent : key ∉ map.keys := fun inside =>
          shown (GaugeSeries.mem_ofKeys_iff.mpr ⟨key, inside, ofGauge, same⟩)
        simpa using absent
    simp only [shown, or_false, not_false_eq_true, and_true, gone]

/-- An update that stops half-way forgets the series that it has begun, unless it remembered them. -/
theorem forgets_update_of_not_showable (stops : ¬ map.Showable) (series : GaugeSeries) :
    (exporter.update map).2.Forgets series ↔ exporter.Forgets series ∨
      series ∈ map.begun ∧ series ∉ GaugeSeries.ofKeys exporter.published := by
  obtain ⟨fault, -, ended⟩ := exporter.update_of_not_showable stops
  rw [ended]
  unfold Forgets
  dsimp only
  rw [has_taken]
  exact or_and_right

/-- Clearing an exporter leaves the series that it has forgotten, and none of a class. -/
theorem has_clear_iff {series : GaugeSeries} :
    exporter.clear.gauges.Has series ↔
      exporter.Forgets series ∧ ∃ gauge name nodeClass, series = .ofNode gauge name nodeClass := by
  rw [clear_gauges, Gauges.has_removeAll, Gauges.has_removeAll]
  apply and_congr_right
  intro _
  cases series with
  | nodes nodeClass =>
      have listed : GaugeSeries.nodes nodeClass ∈ NodeClass.all.map .nodes := by
        cases nodeClass <;> decide
      simp [listed]
  | ofNode gauge name nodeClass => simp

/-- Clearing an exporter neither forgets series nor remembers them again. -/
theorem forgets_clear : exporter.clear.Forgets (.ofNode gauge name nodeClass) ↔
    exporter.Forgets (.ofNode gauge name nodeClass) := by
  have nothing : GaugeSeries.ofNode gauge name nodeClass ∉
      GaugeSeries.ofKeys exporter.clear.published := List.not_mem_nil
  unfold Forgets at *
  rw [has_clear_iff]
  simp [Forgets, nothing]

/-- An update of a history stopped after it had begun a series that was not remembered, and no later one
that succeeded showed the node of the series. -/
def LeavesBehind (exporter : Exporter) (history : List Call) (series : GaugeSeries) : Prop :=
  ∃ before map later, history = before ++ .update map :: later ∧ ¬ map.Showable ∧
    series ∈ map.begun ∧ series ∉ GaugeSeries.ofKeys (exporter.after before).published ∧
    ∀ other, .update other ∈ later → other.Showable → series ∉ GaugeSeries.ofKeys other.keys

/-- What a history leaves behind, by its last call. -/
theorem leavesBehind_concat {history : List Call} {call : Call} {series : GaugeSeries} :
    exporter.LeavesBehind (history ++ [call]) series ↔
      (exporter.LeavesBehind history series ∧
        ∀ map, call = .update map → map.Showable → series ∉ GaugeSeries.ofKeys map.keys) ∨
      ∃ map, call = .update map ∧ ¬ map.Showable ∧ series ∈ map.begun ∧
        series ∉ GaugeSeries.ofKeys (exporter.after history).published := by
  constructor
  · intro left
    obtain ⟨before, map, later, split, stops, begun, unknown, never⟩ := left
    rcases List.eq_nil_or_concat later with rfl | ⟨earlier, last, rfl⟩
    · obtain ⟨rfl, same⟩ := List.append_inj' split rfl
      exact .inr ⟨map, List.head_eq_of_cons_eq same, stops, begun, unknown⟩
    · rw [List.concat_eq_append] at split never
      have regrouped : history ++ [call] = (before ++ .update map :: earlier) ++ [last] := by
        rw [split, List.append_assoc, List.cons_append]
      obtain ⟨rfl, same⟩ := List.append_inj' regrouped rfl
      obtain rfl : call = last := List.head_eq_of_cons_eq same
      refine .inl ⟨⟨before, map, earlier, rfl, stops, begun, unknown, ?_⟩, ?_⟩
      · exact fun other member => never other (List.mem_append_left _ member)
      · intro other same
        exact never other (List.mem_append_right _ (List.mem_singleton.mpr same.symm))
  · intro either
    rcases either with ⟨⟨before, map, later, rfl, stops, begun, unknown, never⟩, last⟩ |
      ⟨map, rfl, stops, begun, unknown⟩
    · refine ⟨before, map, later ++ [call], by rw [List.append_assoc, List.cons_append], stops,
        begun, unknown, ?_⟩
      intro other member
      rcases List.mem_append.mp member with old | same
      · exact never other old
      · exact last other (List.mem_singleton.mp same).symm
    · exact ⟨history, map, [], rfl, stops, begun, unknown, fun _ absent =>
        absurd absent List.not_mem_nil⟩

/-- One more call forgets what it leaves behind, and keeps forgetting the rest. -/
theorem forgets_perform {call : Call} :
    (exporter.perform call).Forgets (.ofNode gauge name nodeClass) ↔
      (exporter.Forgets (.ofNode gauge name nodeClass) ∧
        ∀ map, call = .update map → map.Showable →
          .ofNode gauge name nodeClass ∉ GaugeSeries.ofKeys map.keys) ∨
      ∃ map, call = .update map ∧ ¬ map.Showable ∧ .ofNode gauge name nodeClass ∈ map.begun ∧
        .ofNode gauge name nodeClass ∉ GaugeSeries.ofKeys exporter.published := by
  cases call with
  | clear =>
      unfold perform
      rw [forgets_clear]
      simp
  | update map =>
      unfold perform
      by_cases showable : map.Showable
      · rw [forgets_update_of_showable showable]
        simp [showable]
      · rw [forgets_update_of_not_showable showable]
        simp [showable]

/-- The series that are forgotten after a history are those that it leaves behind. -/
theorem forgets_after_iff (port : Int) (history : List Call) :
    ((new port).after history).Forgets (.ofNode gauge name nodeClass) ↔
      (new port).LeavesBehind history (.ofNode gauge name nodeClass) := by
  induction history using List.reverseRecOn with
  | nil =>
      constructor
      · intro forgets
        cases forgets.1
      · intro left
        obtain ⟨before, map, later, split, -⟩ := left
        exact absurd split.symm (List.append_ne_nil_of_right_ne_nil _ (List.cons_ne_nil _ _))
  | append_singleton history call ih =>
      rw [after_concat, forgets_perform, leavesBehind_concat, ih]

/-- Right after an exporter is cleared, the series are there that its history left behind. -/
theorem has_clear_after_iff (port : Int) (history : List Call) (series : GaugeSeries) :
    ((new port).after history).clear.gauges.Has series ↔
      (∃ gauge name nodeClass, series = .ofNode gauge name nodeClass) ∧
        (new port).LeavesBehind history series := by
  rw [has_clear_iff, and_comm]
  apply and_congr_right
  rintro ⟨gauge, name, nodeClass, rfl⟩
  exact forgets_after_iff port history

/-- If every update succeeded, nothing is there right after an exporter is cleared. -/
theorem clear_after_eq_nil (port : Int) {history : List Call}
    (showable : ∀ map, .update map ∈ history → map.Showable) :
    ((new port).after history).clear.gauges = [] := by
  apply Gauges.eq_nil_of_not_has
  intro series exported
  obtain ⟨-, before, map, later, rfl, stops, -⟩ :=
    (has_clear_after_iff port history series).mp exported
  exact stops (showable map (List.mem_append_right _ List.mem_cons_self))

/-- **What clearing leaves.** Whatever updates and clearings an exporter has seen, right after it is
cleared no series of a class is exported, and a series of a node is exported exactly if an update that
stopped half-way had begun it while it was not remembered, and no later update that succeeded showed its
node. When every update succeeds, nothing at all is left. -/
theorem has_after_clear_iff (port : Int) (history : List Call) :
    (∀ series, ((new port).after (history ++ [.clear])).gauges.Has series ↔
      (∃ gauge name nodeClass, series = .ofNode gauge name nodeClass) ∧
        (new port).LeavesBehind history series) ∧
    ((∀ map, .update map ∈ history → map.Showable) →
      ((new port).after (history ++ [.clear])).gauges = []) := by
  rw [after_concat]
  exact ⟨has_clear_after_iff port history, clear_after_eq_nil port⟩

end Exporter

/-! ## A huge node

A node whose free CPU in millicores exceeds every double. -/

namespace HugeNode

def node : Node := Inventory.node "huge" "1e306" ["kubernetes.io/role=worker"]

/-- What the node has to offer, in millicores. -/
def offer : Int := 10 ^ 309

def map : NodeMap := ⟨[], [⟨node, [], 0, offer⟩]⟩

/-- The free CPU of the huge node fits no double. -/
theorem not_fits : ¬ map.Fits := by
  intro fits
  have large : Double.ofInt? offer = none := by decide +kernel
  obtain ⟨value, fit⟩ := fits (.ofNode .freeCpu "huge" .onDemand, offer) (by decide +kernel)
  rw [large] at fit
  cases fit

end HugeNode

/-- The update with a huge node stops at its free CPU, and its two series are still there after the
exporter is cleared. -/
theorem Exporter.clear_leaves_hugeNode :
    (∀ info ∈ HugeNode.map.spot ++ HugeNode.map.onDemand, info.node.name = .ok (some "huge")) ∧
      ((new 9235).after [.update HugeNode.map, .clear]).gauges =
        [(.ofNode .requestedCpu "huge" .onDemand, 0), (.ofNode .freeCpu "huge" .onDemand, 0)] := by
  decide +kernel

end SpotCapacity
