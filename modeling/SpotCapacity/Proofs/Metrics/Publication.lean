import SpotCapacity.Proofs.Metrics.Exporter

/-!
# Updates that stop half-way

An update takes its steps up to the first that fails. It succeeds when all nodes of the map have names
and all amounts fit a double (`Exporter.update_of_showable`); otherwise it ends with the fault of a step
and leaves the changes of the steps before it, while the exporter remembers what it remembered before
(`Exporter.update_of_not_showable`).
-/

namespace SpotCapacity

/-- The changes that are made before the first step that fails. -/
def GaugeStep.taken : List GaugeStep → List GaugeChange
  | .ok change :: rest => change :: taken rest
  | _ => []

namespace GaugeStep

/-- Every change that is taken is one of the steps. -/
theorem ok_mem_of_mem_taken {steps : List GaugeStep} {change : GaugeChange}
    (member : change ∈ taken steps) : .ok change ∈ steps := by
  induction steps with
  | nil => exact absurd member List.not_mem_nil
  | cons step rest ih =>
      cases step with
      | error fault => exact absurd member List.not_mem_nil
      | ok first =>
          rcases List.mem_cons.mp member with rfl | later
          · exact List.mem_cons_self
          · exact List.mem_cons_of_mem _ (ih later)

/-- Whether no step of a list fails. -/
def AllOk (steps : List GaugeStep) : Prop := ∀ step ∈ steps, ∃ change, step = .ok change

private theorem taken_append_of_allOk {steps : List GaugeStep} (all : AllOk steps) (more : List GaugeStep) :
    taken (steps ++ more) = taken steps ++ taken more := by
  induction steps with
  | nil => rfl
  | cons step rest ih =>
      obtain ⟨⟨change, rfl⟩, others⟩ := List.forall_mem_cons.mp all
      change change :: taken (rest ++ more) = _
      rw [ih others]
      rfl

private theorem taken_append_of_not_allOk {steps : List GaugeStep} (fails : ¬ AllOk steps)
    (more : List GaugeStep) : taken (steps ++ more) = taken steps := by
  induction steps with
  | nil => exact absurd (fun _ member => absurd member List.not_mem_nil) fails
  | cons step rest ih =>
      cases step with
      | error fault => rfl
      | ok change =>
          have later : ¬ AllOk rest := fun all =>
            fails (List.forall_mem_cons.mpr ⟨⟨change, rfl⟩, all⟩)
          change change :: taken (rest ++ more) = _
          rw [ih later]
          rfl

private theorem taken_map_ok (changes : List GaugeChange) : taken (changes.map .ok) = changes := by
  induction changes with
  | nil => rfl
  | cons change rest ih => exact congrArg (change :: ·) ih

private theorem mem_taken_of_allOk {steps : List GaugeStep} (all : AllOk steps) {change : GaugeChange}
    (member : .ok change ∈ steps) : change ∈ taken steps := by
  induction steps with
  | nil => exact absurd member List.not_mem_nil
  | cons step rest ih =>
      obtain ⟨⟨first, rfl⟩, others⟩ := List.forall_mem_cons.mp all
      rcases List.mem_cons.mp member with same | later
      · exact Except.ok.inj same ▸ List.mem_cons_self
      · exact List.mem_cons_of_mem _ (ih others later)

end GaugeStep

namespace Gauges

open GaugeStep

/-- What steps leave is what the changes make that are taken. -/
theorem take_snd (gauges : Gauges) (steps : List GaugeStep) :
    (gauges.take steps).2 = gauges.changeAll (taken steps) := by
  induction steps generalizing gauges with
  | nil => rfl
  | cons step rest ih =>
      cases step with
      | error fault => rfl
      | ok change => exact ih (gauges.change change)

private theorem take_fst_of_allOk (gauges : Gauges) {steps : List GaugeStep} (all : AllOk steps) :
    (gauges.take steps).1 = .ok () := by
  induction steps generalizing gauges with
  | nil => rfl
  | cons step rest ih =>
      obtain ⟨⟨change, rfl⟩, others⟩ := List.forall_mem_cons.mp all
      exact ih (gauges.change change) others

private theorem take_fst_of_not_allOk (gauges : Gauges) {steps : List GaugeStep} (fails : ¬ AllOk steps)
    (more : List GaugeStep) :
    ∃ fault, .error fault ∈ steps ∧ (gauges.take (steps ++ more)).1 = .error fault := by
  induction steps generalizing gauges with
  | nil => exact absurd (fun _ member => absurd member List.not_mem_nil) fails
  | cons step rest ih =>
      cases step with
      | error fault => exact ⟨fault, List.mem_cons_self, rfl⟩
      | ok change =>
          have later : ¬ AllOk rest := fun all =>
            fails (List.forall_mem_cons.mpr ⟨⟨change, rfl⟩, all⟩)
          obtain ⟨fault, member, came⟩ := ih (gauges.change change) later
          exact ⟨fault, List.mem_cons_of_mem _ member, came⟩

/-- A series exists. -/
def Has (gauges : Gauges) (series : GaugeSeries) : Prop := (gauges.lookup series).isSome = true

instance (gauges : Gauges) (series : GaugeSeries) : Decidable (gauges.Has series) :=
  inferInstanceAs (Decidable (_ = true))

/-- A series is there after a removal if it was there and is not removed. -/
theorem has_removeAll (gauges : Gauges) (series : List GaugeSeries) (wanted : GaugeSeries) :
    (gauges.removeAll series).Has wanted ↔ gauges.Has wanted ∧ wanted ∉ series := by
  unfold Has
  rw [lookup_removeAll]
  by_cases removed : wanted ∈ series
  · simp [removed]
  · simp [removed]

end Gauges

def GaugeChange.series : GaugeChange → GaugeSeries
  | .create series => series
  | .set series _ => series
  | .remove series => series

namespace Gauges

private theorem has_set (gauges : Gauges) (changed wanted : GaugeSeries) (value : Double) :
    (gauges.change (.set changed value)).Has wanted ↔ gauges.Has wanted ∨ wanted = changed := by
  unfold Has
  rw [lookup_set]
  by_cases same : wanted = changed
  · simp [same]
  · simp [same]

private theorem has_create (gauges : Gauges) (created wanted : GaugeSeries) :
    (gauges.change (.create created)).Has wanted ↔ gauges.Has wanted ∨ wanted = created := by
  by_cases same : wanted = created
  · subst same
    unfold Has
    rw [change]
    cases found : gauges.lookup wanted with
    | some value => simp [found]
    | none => simp [Keyed.lookup_put]
  · unfold Has
    rw [lookup_create gauges same]
    simp [same]

/-- Changes that remove nothing leave the series that were there and those that they change. -/
theorem has_changeAll {changes : List GaugeChange}
    (adds : ∀ change ∈ changes, ∀ series, change ≠ .remove series) (gauges : Gauges)
    (wanted : GaugeSeries) :
    (gauges.changeAll changes).Has wanted ↔
      gauges.Has wanted ∨ wanted ∈ changes.map GaugeChange.series := by
  unfold changeAll
  induction changes generalizing gauges with
  | nil => simp
  | cons first rest ih =>
      obtain ⟨here, others⟩ := List.forall_mem_cons.mp adds
      rw [List.foldl_cons, ih others, List.map_cons, List.mem_cons, ← or_assoc]
      apply or_congr_left
      cases first with
      | create series => exact has_create gauges series wanted
      | set series value => exact has_set gauges series wanted value
      | remove series => exact absurd rfl (here series)

/-- Gauges without series are empty. -/
theorem eq_nil_of_not_has {gauges : Gauges} (none : ∀ series, ¬ gauges.Has series) : gauges = [] := by
  cases gauges with
  | nil => rfl
  | cons entry rest =>
      refine absurd ?_ (none entry.1)
      unfold Has
      rw [List.lookup_cons_self]
      rfl

end Gauges

namespace GaugeSeries

/-- A series is assigned by creating it and setting its value. -/
theorem assign_of_some {n : Int} {value : Double} (fits : Double.ofInt? n = some value)
    (series : GaugeSeries) : series.assign n = [.ok (.create series), .ok (.set series value)] := by
  unfold assign
  rw [fits]

private theorem assign_of_none {n : Int} (large : Double.ofInt? n = none) (series : GaugeSeries) :
    series.assign n = [.ok (.create series), .error .doubleRange] := by
  unfold assign
  rw [large]

/-- An assignment changes its series alone, and removes nothing. -/
theorem mem_assign {series : GaugeSeries} {n : Int} {change : GaugeChange}
    (member : .ok change ∈ series.assign n) :
    change = .create series ∨ ∃ value, change = .set series value := by
  cases fit : Double.ofInt? n with
  | some value =>
      rw [assign_of_some fit] at member
      rcases List.mem_cons.mp member with created | set
      · exact .inl (Except.ok.inj created)
      · exact .inr ⟨value, Except.ok.inj (List.mem_singleton.mp set)⟩
  | none =>
      rw [assign_of_none fit] at member
      rcases List.mem_cons.mp member with created | failed
      · exact .inl (Except.ok.inj created)
      · cases List.mem_singleton.mp failed

end GaugeSeries

namespace NodeMap

/-- All nodes of a map have names, and all its amounts fit a double. -/
structure Showable (map : NodeMap) : Prop where
  named : ∀ info ∈ map.spot ++ map.onDemand, ∃ name, info.node.name = .ok name
  fits : map.Fits

/-- The series that an update changes before it stops. -/
def begun (map : NodeMap) : List GaugeSeries :=
  (GaugeStep.taken map.publication).map GaugeChange.series

variable {map : NodeMap}

private theorem publication_of_named (named : ∀ info ∈ map.spot ++ map.onDemand,
      ∃ name, info.node.name = .ok name) {step : GaugeStep} :
    step ∈ map.publication ↔ ∃ entry ∈ map.series, step ∈ entry.1.assign entry.2 := by
  rw [publication_eq named]
  exact List.mem_flatMap

/-- Showing a map removes nothing. -/
theorem publication_removes_nothing (series : GaugeSeries) :
    .ok (.remove series) ∉ map.publication := by
  have assigns : ∀ (assigned : GaugeSeries) n, .ok (.remove series) ∉ assigned.assign n := by
    intro assigned n member
    rcases GaugeSeries.mem_assign member with created | ⟨value, set⟩
    · cases created
    · cases set
  unfold publication
  simp only [List.mem_flatMap, List.mem_append, not_exists, not_and, not_or]
  intro entry _
  refine ⟨assigns _ _, ?_⟩
  intro info _ member
  unfold NodeInfo.publication at member
  cases named : info.node.name with
  | error fault => simp [named] at member
  | ok name => simp [named, assigns] at member

private theorem mem_byClass_of_mem {info : NodeInfo} (member : info ∈ map.spot ++ map.onDemand) :
    ∃ nodeClass infos, (nodeClass, infos) ∈ map.byClass ∧ info ∈ infos := by
  rcases List.mem_append.mp member with spot | onDemand
  · exact ⟨.spot, map.spot, mem_byClass_iff.mpr (.inl ⟨rfl, rfl⟩), spot⟩
  · exact ⟨.onDemand, map.onDemand, mem_byClass_iff.mpr (.inr ⟨rfl, rfl⟩), onDemand⟩

/-- A node without a name makes a step of the publication fail. -/
theorem error_mem_publication {info : NodeInfo} {fault : Fault}
    (member : info ∈ map.spot ++ map.onDemand) (unnamed : info.node.name = .error fault) :
    .error fault ∈ map.publication := by
  obtain ⟨nodeClass, infos, listed, inside⟩ := mem_byClass_of_mem member
  unfold publication
  refine List.mem_flatMap.mpr ⟨(nodeClass, infos), listed, List.mem_append_right _ ?_⟩
  refine List.mem_flatMap.mpr ⟨info, inside, ?_⟩
  unfold NodeInfo.publication
  rw [unnamed]
  exact List.mem_singleton_self _

/-- All steps that show a map can be taken exactly if the map can be shown. -/
theorem publication_allOk_iff : GaugeStep.AllOk map.publication ↔ map.Showable := by
  constructor
  · intro all
    have named : ∀ info ∈ map.spot ++ map.onDemand, ∃ name, info.node.name = .ok name := by
      intro info member
      cases here : info.node.name with
      | ok name => exact ⟨name, rfl⟩
      | error fault =>
          obtain ⟨change, same⟩ := all _ (error_mem_publication member here)
          cases same
    refine ⟨named, ?_⟩
    intro entry member
    cases fit : Double.ofInt? entry.2 with
    | some value => exact ⟨value, rfl⟩
    | none =>
        have failed : .error .doubleRange ∈ entry.1.assign entry.2 := by
          rw [GaugeSeries.assign_of_none fit]
          exact List.mem_cons_of_mem _ List.mem_cons_self
        obtain ⟨change, same⟩ := all _ ((publication_of_named named).mpr ⟨entry, member, failed⟩)
        cases same
  · intro showable step member
    obtain ⟨entry, inside, assigned⟩ := (publication_of_named showable.named).mp member
    obtain ⟨value, fit⟩ := showable.fits entry inside
    rw [GaugeSeries.assign_of_some fit] at assigned
    rcases List.mem_cons.mp assigned with created | set
    · exact ⟨_, created⟩
    · exact ⟨_, List.mem_singleton.mp set⟩

/-- The only fault of showing nodes that have names is an amount that does not fit a double. -/
theorem doubleRange_of_error (named : ∀ info ∈ map.spot ++ map.onDemand,
      ∃ name, info.node.name = .ok name) {fault : Fault} (member : .error fault ∈ map.publication) :
    fault = .doubleRange := by
  obtain ⟨entry, -, assigned⟩ := (publication_of_named named).mp member
  cases fit : Double.ofInt? entry.2 with
  | some value =>
      rw [GaugeSeries.assign_of_some fit] at assigned
      simp at assigned
  | none =>
      rw [GaugeSeries.assign_of_none fit] at assigned
      simpa using assigned

/-- An update that does not stop changes all series of the map. -/
theorem mem_begun_iff_of_showable (showable : map.Showable) {series : GaugeSeries} :
    series ∈ map.begun ↔ ∃ n, (series, n) ∈ map.series := by
  unfold begun
  rw [List.mem_map]
  constructor
  · intro changed
    obtain ⟨change, member, rfl⟩ := changed
    obtain ⟨entry, inside, assigned⟩ :=
      (publication_of_named showable.named).mp (GaugeStep.ok_mem_of_mem_taken member)
    have same : change.series = entry.1 := by
      rcases GaugeSeries.mem_assign assigned with rfl | ⟨value, rfl⟩
      · rfl
      · rfl
    exact ⟨entry.2, by rw [same]; exact inside⟩
  · intro shown
    obtain ⟨n, inside⟩ := shown
    refine ⟨.create series, ?_, rfl⟩
    exact GaugeStep.mem_taken_of_allOk (publication_allOk_iff.mpr showable)
      ((publication_of_named showable.named).mpr ⟨_, inside, List.mem_cons_self⟩)

/-- The series of the nodes of a map, by their keys. -/
theorem ofNode_mem_ofKeys_iff {gauge : NodeGauge} {name : String} {nodeClass : NodeClass} :
    .ofNode gauge name nodeClass ∈ GaugeSeries.ofKeys map.keys ↔
      ∃ n, (.ofNode gauge name nodeClass, n) ∈ map.series := by
  rw [GaugeSeries.mem_ofKeys_iff]
  constructor
  · intro remembered
    obtain ⟨key, member, ofGauge, same⟩ := remembered
    obtain ⟨n, inside⟩ := exists_mem_series member ofGauge
    exact ⟨n, same ▸ inside⟩
  · intro shown
    obtain ⟨n, inside⟩ := shown
    obtain ⟨ofClass, infos, listed, here⟩ := mem_series_iff.mp inside
    rcases here with same | ⟨info, member, shownName, ofGauge, named, same⟩
    · cases same
    · obtain ⟨series, -⟩ := Prod.mk.inj same
      exact ⟨(shownName, ofClass), mem_keys_iff.mpr ⟨infos, listed, info, member, named⟩, ofGauge,
        series⟩

end NodeMap

namespace Exporter

variable {map : NodeMap}

/-- An update with a map that can be shown makes all changes, and remembers the nodes of the map. -/
theorem update_of_showable (exporter : Exporter) (showable : map.Showable) :
    exporter.update map = (.ok (), { exporter with
      gauges := Gauges.removeAll (exporter.gauges.changeAll (GaugeStep.taken map.publication))
        (GaugeSeries.ofKeys (exporter.gone map))
      published := map.keys }) := by
  have all := NodeMap.publication_allOk_iff.mpr showable
  have allSteps : GaugeStep.AllOk (exporter.updateSteps map) := by
    intro step member
    rcases List.mem_append.mp member with shown | removed
    · exact all step shown
    · obtain ⟨change, -, rfl⟩ := List.mem_map.mp removed
      exact ⟨change, rfl⟩
  have taken : exporter.gauges.take (exporter.updateSteps map) =
      (.ok (), Gauges.removeAll (exporter.gauges.changeAll (GaugeStep.taken map.publication))
        (GaugeSeries.ofKeys (exporter.gone map))) := by
    apply Prod.ext
    · exact exporter.gauges.take_fst_of_allOk allSteps
    · rw [Gauges.take_snd, updateSteps, GaugeStep.taken_append_of_allOk all,
        GaugeStep.taken_map_ok, ← GaugeSeries.changeAll_withdrawal, Gauges.changeAll,
        List.foldl_append]
      rfl
  unfold update
  rw [taken]

/-- An update with a map that cannot be shown stops half-way, and remembers what it remembered. -/
theorem update_of_not_showable (exporter : Exporter) (stops : ¬ map.Showable) :
    ∃ fault, .error fault ∈ map.publication ∧
      exporter.update map = (.error fault, { exporter with
        gauges := exporter.gauges.changeAll (GaugeStep.taken map.publication) }) := by
  have fails : ¬ GaugeStep.AllOk map.publication := fun all =>
    stops (NodeMap.publication_allOk_iff.mp all)
  obtain ⟨fault, member, came⟩ := exporter.gauges.take_fst_of_not_allOk fails
    ((GaugeSeries.withdrawal (exporter.gone map)).map .ok)
  have taken : exporter.gauges.take (exporter.updateSteps map) =
      (.error fault, exporter.gauges.changeAll (GaugeStep.taken map.publication)) := by
    apply Prod.ext
    · exact came
    · rw [Gauges.take_snd, updateSteps, GaugeStep.taken_append_of_not_allOk fails]
  refine ⟨fault, member, ?_⟩
  unfold update
  rw [taken]

end Exporter

end SpotCapacity
