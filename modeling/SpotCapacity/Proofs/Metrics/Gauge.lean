import Mathlib
import SpotCapacity.Metrics.Gauge

/-!
# What gauges show

The series of a map with their amounts (`NodeMap.series`), and what is read of the gauges after they
were changed: a series shows the last amount that was assigned to it
(`Gauges.lookup_assignAll`) unless it was removed after that (`Gauges.lookup_removeAll`). Publishing a
map whose nodes are named and whose amounts fit a double assigns the series of the map, one after the
other (`Gauges.take_publication`).
-/

namespace SpotCapacity

namespace NodeInfo

def amount (info : NodeInfo) : NodeGauge → Int
  | .requestedCpu => info.requestedCpu
  | .freeCpu => info.freeCpu
  | .pods => info.pods.length

/-- The series of a node of a class with their amounts. -/
def series (nodeClass : NodeClass) (info : NodeInfo) : List (GaugeSeries × Int) :=
  match info.node.name with
  | .ok name => NodeGauge.all.map fun gauge => (.ofNode gauge (shown name) nodeClass, info.amount gauge)
  | .error _ => []

/-- A node shows each of its amounts, if it has metadata. -/
theorem mem_series_iff {nodeClass : NodeClass} {info : NodeInfo} {entry : GaugeSeries × Int} :
    entry ∈ info.series nodeClass ↔ ∃ name gauge, info.node.name = .ok name ∧
      entry = (.ofNode gauge (shown name) nodeClass, info.amount gauge) := by
  rw [series]
  cases info.node.name with
  | error fault => simp
  | ok name =>
      have every : ∀ gauge, gauge ∈ NodeGauge.all := by
        intro gauge
        cases gauge <;> decide
      simp [every, eq_comm]

/-- A node that has a name is shown by an assignment of each of its series. -/
theorem publication_eq {nodeClass : NodeClass} {info : NodeInfo} {name : Option String}
    (named : info.node.name = .ok name) :
    info.publication nodeClass =
      (info.series nodeClass).flatMap fun entry => entry.1.assign entry.2 := by
  simp only [publication, series, named, NodeGauge.all, List.map_cons, List.map_nil,
    List.flatMap_cons, List.flatMap_nil, List.append_nil, List.append_assoc, amount]

end NodeInfo

namespace NodeMap

def series (map : NodeMap) : List (GaugeSeries × Int) :=
  map.byClass.flatMap fun (nodeClass, infos) =>
    (.nodes nodeClass, (infos.length : Int)) :: infos.flatMap (NodeInfo.series nodeClass)

/-- The classes of a map are the spot nodes and the on-demand nodes. -/
theorem mem_byClass_iff {map : NodeMap} {nodeClass : NodeClass} {infos : List NodeInfo} :
    (nodeClass, infos) ∈ map.byClass ↔
      nodeClass = .spot ∧ infos = map.spot ∨ nodeClass = .onDemand ∧ infos = map.onDemand := by
  simp [byClass]

/-- A class is listed with one list of nodes. -/
theorem byClass_unique {map : NodeMap} {nodeClass : NodeClass} {infos others : List NodeInfo}
    (listed : (nodeClass, infos) ∈ map.byClass) (also : (nodeClass, others) ∈ map.byClass) :
    infos = others := by
  rcases mem_byClass_iff.mp listed with ⟨rfl, rfl⟩ | ⟨rfl, rfl⟩ <;>
    rcases mem_byClass_iff.mp also with ⟨same, rfl⟩ | ⟨same, rfl⟩
  · rfl
  · cases same
  · cases same
  · rfl

/-- A node of a class is a node of the map. -/
theorem mem_of_byClass {map : NodeMap} {nodeClass : NodeClass} {infos : List NodeInfo}
    (listed : (nodeClass, infos) ∈ map.byClass) {info : NodeInfo} (member : info ∈ infos) :
    info ∈ map.spot ++ map.onDemand := by
  rcases mem_byClass_iff.mp listed with ⟨-, rfl⟩ | ⟨-, rfl⟩
  · exact List.mem_append_left _ member
  · exact List.mem_append_right _ member

/-- A map shows how many nodes each class has, and the amounts of these nodes. -/
theorem mem_series_iff {map : NodeMap} {entry : GaugeSeries × Int} :
    entry ∈ map.series ↔ ∃ nodeClass infos, (nodeClass, infos) ∈ map.byClass ∧
      (entry = (.nodes nodeClass, (infos.length : Int)) ∨
        ∃ info ∈ infos, ∃ name gauge, info.node.name = .ok name ∧
          entry = (.ofNode gauge (shown name) nodeClass, info.amount gauge)) := by
  simp only [series, List.mem_flatMap, Prod.exists, List.mem_cons, NodeInfo.mem_series_iff]

/-- The keys of a map are the names of its nodes with their classes. -/
theorem mem_keys_iff {map : NodeMap} {key : NodeKey} :
    key ∈ map.keys ↔ ∃ infos, (key.2, infos) ∈ map.byClass ∧
      ∃ info ∈ infos, info.node.name = .ok key.1 := by
  have named : ∀ info : NodeInfo, ∀ name, info.node.name.toOption = some name ↔
      info.node.name = .ok name := by
    intro info name
    cases info.node.name <;> simp [Except.toOption]
  obtain ⟨name, nodeClass⟩ := key
  simp only [keys, List.mem_eraseDups, List.mem_flatMap, Prod.exists, List.mem_filterMap,
    Option.map_eq_some_iff, Prod.mk.injEq, named]
  constructor
  · rintro ⟨_, infos, listed, info, member, _, here, rfl, rfl⟩
    exact ⟨infos, listed, info, member, here⟩
  · rintro ⟨infos, listed, info, member, here⟩
    exact ⟨nodeClass, infos, listed, info, member, name, here, rfl, rfl⟩

/-- A map whose nodes have names is shown by an assignment of each of its series. -/
theorem publication_eq {map : NodeMap}
    (named : ∀ info ∈ map.spot ++ map.onDemand, ∃ name, info.node.name = .ok name) :
    map.publication = map.series.flatMap fun entry => entry.1.assign entry.2 := by
  have each : ∀ nodeClass infos, (nodeClass, infos) ∈ map.byClass →
      infos.flatMap (NodeInfo.publication nodeClass) =
        (infos.flatMap (NodeInfo.series nodeClass)).flatMap
          fun entry => entry.1.assign entry.2 := by
    intro nodeClass infos listed
    rw [List.flatMap_assoc]
    apply List.flatMap_congr
    intro info member
    obtain ⟨name, here⟩ := named info (mem_of_byClass listed member)
    exact NodeInfo.publication_eq here
  rw [publication, series, List.flatMap_assoc]
  apply List.flatMap_congr
  rintro ⟨nodeClass, infos⟩ listed
  dsimp only
  rw [List.flatMap_cons, each nodeClass infos listed]

end NodeMap

namespace Keyed

variable {κ : Type} {α : Type} [BEq κ] [LawfulBEq κ]

private theorem keys_put (key : κ) (value : α) (entries : List (κ × α)) :
    (put key value entries).map Prod.fst =
      if key ∈ entries.map Prod.fst then entries.map Prod.fst
      else entries.map Prod.fst ++ [key] := by
  induction entries with
  | nil => simp [put]
  | cons entry rest ih =>
      obtain ⟨other, old⟩ := entry
      rw [put]
      by_cases same : other = key
      · simp [same]
      · have missed : (other == key) = false := beq_eq_false_iff_ne.mpr same
        simp only [missed, Bool.false_eq_true, ↓reduceIte, List.map_cons, ih, List.mem_cons,
          Ne.symm same, false_or]
        split <;> rfl

private theorem nodup_put {key : κ} {value : α} {entries : List (κ × α)}
    (once : (entries.map Prod.fst).Nodup) : ((put key value entries).map Prod.fst).Nodup := by
  rw [keys_put]
  split
  · exact once
  · rename_i absent
    exact List.nodup_append.mpr ⟨once, List.nodup_singleton key, by
      intro left inLeft right inRight same
      exact absent (List.mem_singleton.mp inRight ▸ same ▸ inLeft)⟩

omit [LawfulBEq κ] in
private theorem nodup_erase {key : κ} {entries : List (κ × α)} (once : (entries.map Prod.fst).Nodup) :
    ((erase key entries).map Prod.fst).Nodup :=
  once.sublist (List.filter_sublist.map Prod.fst)

end Keyed

namespace Gauges

private theorem nodup_change {gauges : Gauges} (once : (gauges.map Prod.fst).Nodup)
    (step : GaugeChange) : ((gauges.change step).map Prod.fst).Nodup := by
  cases step with
  | create series =>
      rw [change]
      cases gauges.lookup series with
      | none => exact Keyed.nodup_put once
      | some value => exact once
  | set series value => exact Keyed.nodup_put once
  | remove series => exact Keyed.nodup_erase once

/-- Changes keep each series at most once. -/
theorem nodup_changeAll {gauges : Gauges} (once : (gauges.map Prod.fst).Nodup)
    (steps : List GaugeChange) : ((gauges.changeAll steps).map Prod.fst).Nodup := by
  rw [changeAll]
  induction steps generalizing gauges with
  | nil => exact once
  | cons step rest ih => exact ih (nodup_change once step)

def assign (gauges : Gauges) (entry : GaugeSeries × Int) : Gauges :=
  (gauges.change (.create entry.1)).change (.set entry.1 ((Double.ofInt? entry.2).getD 0))

def removeAll (gauges : Gauges) (series : List GaugeSeries) : Gauges :=
  gauges.changeAll (series.map .remove)

/-- A series that is created changes no other one. -/
theorem lookup_create (gauges : Gauges) {created wanted : GaugeSeries} (other : wanted ≠ created) :
    (gauges.change (.create created)).lookup wanted = gauges.lookup wanted := by
  rw [change]
  cases gauges.lookup created with
  | some value => rfl
  | none =>
      dsimp only
      rw [Keyed.lookup_put, beq_eq_false_iff_ne.mpr other]
      rfl

/-- A series that is set has its new value, and the others have theirs. -/
theorem lookup_set (gauges : Gauges) (changed wanted : GaugeSeries) (value : Double) :
    (gauges.change (.set changed value)).lookup wanted =
      if wanted = changed then some value else gauges.lookup wanted := by
  rw [change, Keyed.lookup_put]
  simp only [beq_iff_eq]

private theorem lookup_assign (gauges : Gauges) (entry : GaugeSeries × Int) (wanted : GaugeSeries) :
    (gauges.assign entry).lookup wanted =
      if wanted = entry.1 then some ((Double.ofInt? entry.2).getD 0) else gauges.lookup wanted := by
  rw [assign, lookup_set]
  by_cases same : wanted = entry.1
  · rw [if_pos same, if_pos same]
  · rw [if_neg same, if_neg same, lookup_create gauges same]

/-- The last amount that is assigned to a series is shown. -/
theorem lookup_assignAll (gauges : Gauges) (entries : List (GaugeSeries × Int))
    (wanted : GaugeSeries) :
    (entries.foldl assign gauges).lookup wanted =
      ((entries.reverse.lookup wanted).map fun n => (Double.ofInt? n).getD 0).or
        (gauges.lookup wanted) := by
  induction entries generalizing gauges with
  | nil => rfl
  | cons entry rest ih =>
      rw [List.foldl_cons, ih, lookup_assign, List.reverse_cons, List.lookup_append]
      cases rest.reverse.lookup wanted with
      | some n => rfl
      | none =>
          obtain ⟨series, n⟩ := entry
          by_cases same : wanted = series
          · subst same
            simp
          · have missed : (wanted == series) = false := beq_eq_false_iff_ne.mpr same
            simp [same, List.lookup_cons, missed]

theorem nodup_assignAll {gauges : Gauges} (once : (gauges.map Prod.fst).Nodup)
    (entries : List (GaugeSeries × Int)) :
    ((entries.foldl assign gauges).map Prod.fst).Nodup := by
  induction entries generalizing gauges with
  | nil => exact once
  | cons entry rest ih => exact ih (nodup_change (nodup_change once _) _)

/-- What is removed is not found, and all else is. -/
theorem lookup_removeAll (gauges : Gauges) (series : List GaugeSeries) (wanted : GaugeSeries) :
    (gauges.removeAll series).lookup wanted =
      if wanted ∈ series then none else gauges.lookup wanted := by
  rw [removeAll, changeAll]
  induction series generalizing gauges with
  | nil => simp
  | cons first rest ih =>
      rw [List.map_cons, List.foldl_cons, ih, change, Keyed.lookup_erase]
      by_cases same : wanted = first
      · simp [same]
      · by_cases later : wanted ∈ rest <;> simp [same, later]

/-- Assigning amounts that fit a double does not fail. -/
theorem take_assign (gauges : Gauges) {entries : List (GaugeSeries × Int)}
    (fit : ∀ entry ∈ entries, ∃ value, Double.ofInt? entry.2 = some value)
    (rest : List GaugeStep) :
    gauges.take ((entries.flatMap fun entry => entry.1.assign entry.2) ++ rest) =
      (entries.foldl assign gauges).take rest := by
  induction entries generalizing gauges with
  | nil => rfl
  | cons entry others ih =>
      obtain ⟨⟨value, here⟩, later⟩ := List.forall_mem_cons.mp fit
      rw [List.foldl_cons, ← ih (gauges.assign entry) later]
      simp only [List.flatMap_cons, GaugeSeries.assign, here, List.cons_append, List.nil_append,
        take, assign, Option.getD_some]

/-- Changes none of which fails are all made. -/
theorem take_ok (gauges : Gauges) (changes : List GaugeChange) :
    gauges.take (changes.map .ok) = (.ok (), gauges.changeAll changes) := by
  induction changes generalizing gauges with
  | nil => rfl
  | cons first rest ih => exact ih (gauges.change first)

end Gauges

namespace GaugeSeries

/-- The series of nodes that are kept account of. -/
def ofKeys (keys : List NodeKey) : List GaugeSeries :=
  keys.flatMap fun key => NodeGauge.all.map fun gauge => .ofNode gauge (shown key.1) key.2

/-- The series of keys are those of their nodes, one for each gauge. -/
theorem mem_ofKeys_iff {keys : List NodeKey} {series : GaugeSeries} :
    series ∈ ofKeys keys ↔
      ∃ key ∈ keys, ∃ gauge, series = .ofNode gauge (shown key.1) key.2 := by
  have every : ∀ gauge, gauge ∈ NodeGauge.all := by
    intro gauge
    cases gauge <;> decide
  simp only [ofKeys, List.mem_flatMap, List.mem_map, every, true_and, eq_comm]

/-- Nodes are withdrawn by removing their series one by one. -/
theorem withdrawal_eq (keys : List NodeKey) : withdrawal keys = (ofKeys keys).map .remove := by
  rw [withdrawal, ofKeys, List.map_flatMap]
  simp only [List.map_map, Function.comp_def]

/-- Withdrawing keys removes the series of their nodes. -/
theorem changeAll_withdrawal (gauges : Gauges) (keys : List NodeKey) :
    gauges.changeAll (withdrawal keys) = gauges.removeAll (ofKeys keys) := by
  rw [Gauges.removeAll, withdrawal_eq]

end GaugeSeries

end SpotCapacity
