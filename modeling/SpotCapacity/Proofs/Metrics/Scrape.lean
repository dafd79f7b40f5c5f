import SpotCapacity.Proofs.Metrics.Replacement

/-!
# Scrapes between the steps of an update

An update replaces one map by another step by step, and the gauges can be read between any two of them
(`Gauges.scrape`). What is read of one series depends on the changes of this series alone. So a series
of both maps turns once from the old value to the new one, a series of the old map alone is removed
once, after the whole new map is shown, and a series of neither map does not come into being
(`Exporter.scraped_during_update`). It can have been there before: an update that stopped leaves the series
that it has begun, and no update of other nodes removes them (`Exporter.begun_series_stays_hugeNode`).
-/

namespace SpotCapacity

/-- An item that is in a list once is found at its place alone. -/
theorem getElem?_eq_some_iff_of_once {α : Type} {before after : List α} {item : α}
    (first : item ∉ before) (last : item ∉ after) (n : Nat) :
    (before ++ item :: after)[n]? = some item ↔ n = before.length := by
  constructor
  · intro found
    rcases Nat.lt_trichotomy n before.length with earlier | same | later
    · rw [List.getElem?_append_left earlier] at found
      exact absurd (List.mem_of_getElem? found) first
    · exact same
    · obtain ⟨k, rfl⟩ := Nat.exists_eq_add_of_lt later
      rw [List.getElem?_append_right (Nat.le_of_lt later), Nat.add_assoc, Nat.add_sub_cancel_left,
        List.getElem?_cons_succ] at found
      exact absurd (List.mem_of_getElem? found) last
  · intro same
    rw [same, List.getElem?_append_right (Nat.le_refl _), Nat.sub_self, List.getElem?_cons_zero]

private theorem nodup_eraseDups {α : Type} [BEq α] [LawfulBEq α] : (items : List α) → items.eraseDups.Nodup
  | [] => .nil
  | first :: rest => by
      rw [List.eraseDups_cons, List.nodup_cons]
      refine ⟨?_, nodup_eraseDups (rest.filter fun other => !other == first)⟩
      simp
termination_by items => items.length
decreasing_by exact Nat.lt_succ_of_le (List.length_filter_le _ _)

/-- A change that leaves a series as it is, if the series exists. -/
def GaugeChange.Spares (series : GaugeSeries) (change : GaugeChange) : Prop :=
  change.series ≠ series ∨ change = .create series

namespace Gauges

/-- What is read of the gauges after the first of some steps. -/
def scrape (gauges : Gauges) (steps : List GaugeStep) (n : Nat) : Gauges :=
  (gauges.take (steps.take n)).2

private theorem scrape_ok (gauges : Gauges) (changes : List GaugeChange) (n : Nat) :
    gauges.scrape (changes.map .ok) n = gauges.changeAll (changes.take n) := by
  rw [scrape, ← List.map_take, take_ok]

private theorem changeAll_append (gauges : Gauges) (changes more : List GaugeChange) :
    gauges.changeAll (changes ++ more) = (gauges.changeAll changes).changeAll more :=
  List.foldl_append

variable {gauges : Gauges} {series : GaugeSeries} {value : Double}

private theorem lookup_change_of_apart {change : GaugeChange} (apart : change.series ≠ series) :
    (gauges.change change).lookup series = gauges.lookup series := by
  have other : series ≠ change.series := apart.symm
  cases change with
  | create created => exact gauges.lookup_create other
  | set changed value => exact (gauges.lookup_set changed series value).trans (if_neg other)
  | remove removed =>
      rw [change, Keyed.lookup_erase]
      exact if_neg fun same => other (eq_of_beq same)

/-- What is read of a series depends on the changes of this series alone. -/
theorem lookup_changeAll_of_apart {changes : List GaugeChange}
    (apart : ∀ change ∈ changes, change.series ≠ series) :
    (gauges.changeAll changes).lookup series = gauges.lookup series := by
  rw [changeAll]
  induction changes generalizing gauges with
  | nil => rfl
  | cons first rest ih =>
      obtain ⟨here, others⟩ := List.forall_mem_cons.mp apart
      rw [List.foldl_cons, ih others, lookup_change_of_apart here]

/-- Changes that spare a series leave its value. -/
theorem lookup_changeAll_of_spares {changes : List GaugeChange}
    (here : gauges.lookup series = some value)
    (spared : ∀ change ∈ changes, change.Spares series) :
    (gauges.changeAll changes).lookup series = some value := by
  rw [changeAll]
  induction changes generalizing gauges with
  | nil => exact here
  | cons first rest ih =>
      obtain ⟨spares, others⟩ := List.forall_mem_cons.mp spared
      rw [List.foldl_cons]
      apply ih _ others
      rcases spares with apart | rfl
      · rw [lookup_change_of_apart apart, here]
      · rw [change, here]
        exact here

/-- A series that one change alone does not spare turns at this change. -/
theorem lookup_changeAll_take {before after : List GaugeChange} {change : GaugeChange}
    {result : Option Double} (here : gauges.lookup series = some value)
    (spared : ∀ other ∈ before, other.Spares series)
    (turns : ∀ gauges : Gauges, (gauges.change change).lookup series = result)
    (apart : ∀ other ∈ after, other.series ≠ series) (n : Nat) :
    (gauges.changeAll ((before ++ change :: after).take n)).lookup series =
      if n ≤ before.length then some value else result := by
  by_cases early : n ≤ before.length
  · rw [if_pos early, List.take_append_of_le_length early]
    exact lookup_changeAll_of_spares here fun other member =>
      spared other (List.mem_of_mem_take member)
  · obtain ⟨k, rfl⟩ := Nat.exists_eq_add_of_lt (Nat.lt_of_not_le early)
    rw [if_neg early, Nat.add_assoc, List.take_length_add_append, List.take_succ_cons,
      changeAll_append]
    change (changeAll (Gauges.change _ change) _).lookup series = result
    rw [lookup_changeAll_of_apart fun other member => apart other (List.mem_of_mem_take member)]
    exact turns _

end Gauges

namespace GaugeSeries

private theorem ofKeys_append (keys others : List NodeKey) :
    ofKeys (keys ++ others) = ofKeys keys ++ ofKeys others := List.flatMap_append

/-- The series of different nodes that have names are different. -/
theorem nodup_ofKeys {keys : List NodeKey} (named : ∀ key ∈ keys, ∃ name, key.1 = some name)
    (once : keys.Nodup) : (ofKeys keys).Nodup := by
  refine List.nodup_flatMap.mpr ⟨fun key _ => ?_, ?_⟩
  · apply List.Nodup.map
    · exact fun gauge other same => (GaugeSeries.ofNode.inj same).1
    · decide
  · refine List.Pairwise.imp_of_mem ?_ once
    intro key other inside also different series first second
    obtain ⟨gauge, -, rfl⟩ := List.mem_map.mp first
    obtain ⟨gauge', -, same⟩ := List.mem_map.mp second
    obtain ⟨-, names, classes⟩ := GaugeSeries.ofNode.inj same
    obtain ⟨name, here⟩ := named key inside
    obtain ⟨name', there⟩ := named other also
    rw [here, there] at names
    apply different
    apply Prod.ext
    · rw [here, there]
      exact congrArg some names.symm
    · exact classes.symm

end GaugeSeries

namespace NodeMap

/-- No two nodes of a class have the same name. -/
def Distinct (map : NodeMap) : Prop :=
  ∀ nodeClass, ((map.entries nodeClass).map (·.node.name)).Nodup

private theorem mem_series_of_entries {map : NodeMap} {nodeClass : NodeClass} {info : NodeInfo}
    {name : String} (member : info ∈ map.entries nodeClass) (named : info.IsNamed name)
    (gauge : NodeGauge) : (.ofNode gauge name nodeClass, info.amount gauge) ∈ map.series := by
  have listed : (nodeClass, map.entries nodeClass) ∈ map.byClass := by
    cases nodeClass with
    | spot => exact mem_byClass_iff.mpr (.inl ⟨rfl, rfl⟩)
    | onDemand => exact mem_byClass_iff.mpr (.inr ⟨rfl, rfl⟩)
    | none => cases member
  exact mem_series_iff.mpr ⟨_, _, listed, .inr ⟨info, member, some name, gauge, named, rfl⟩⟩

/-- A map shows a series of the nodes that it has, and of no other. -/
theorem mem_map_series_iff {map : NodeMap} (exportable : map.Exportable)
    {nodeClass : NodeClass} {name : String} {gauge : NodeGauge} :
    .ofNode gauge name nodeClass ∈ map.series.map Prod.fst ↔
      ∃ info ∈ map.entries nodeClass, info.IsNamed name := by
  have shown : .ofNode gauge name nodeClass ∈ map.series.map Prod.fst ↔
      ∃ n, (.ofNode gauge name nodeClass, n) ∈ map.series := by simp
  rw [shown, exportable.exists_mem_series_iff]
  simp [amount?]

/-- The keys of entries of a class, in their order. -/
def classKeys (nodeClass : NodeClass) (infos : List NodeInfo) : List NodeKey :=
  (infos.map (·.node.name)).filterMap fun name => name.toOption.map fun name => (name, nodeClass)

private theorem mem_classKeys_iff {nodeClass : NodeClass} {infos : List NodeInfo} {key : NodeKey} :
    key ∈ classKeys nodeClass infos ↔
      key.2 = nodeClass ∧ ∃ info ∈ infos, info.node.name = .ok key.1 := by
  simp only [classKeys, List.mem_filterMap, List.mem_map, Option.map_eq_some_iff]
  constructor
  · intro found
    obtain ⟨_, ⟨info, member, rfl⟩, name, here, rfl⟩ := found
    refine ⟨rfl, info, member, ?_⟩
    cases named : info.node.name with
    | error fault => rw [named] at here; cases here
    | ok own => rw [named] at here; rw [Option.some.inj here]
  · intro found
    obtain ⟨rfl, info, member, here⟩ := found
    exact ⟨_, ⟨info, member, rfl⟩, key.1, by rw [here]; rfl, rfl⟩

private theorem nodup_classKeys {nodeClass : NodeClass} {infos : List NodeInfo}
    (distinct : (infos.map (·.node.name)).Nodup) : (classKeys nodeClass infos).Nodup := by
  refine distinct.filterMap fun left right key first second => ?_
  obtain ⟨name, here, rfl⟩ := Option.map_eq_some_iff.mp first
  obtain ⟨other, there, same⟩ := Option.map_eq_some_iff.mp second
  obtain rfl : other = name := (Prod.mk.inj same).1
  cases left with
  | error fault => cases here
  | ok left =>
      cases right with
      | error fault => cases there
      | ok right => rw [Option.some.inj here, Option.some.inj there]

/-- The series of entries of a class are those of their keys. -/
theorem map_series_entries (nodeClass : NodeClass) (infos : List NodeInfo) :
    (infos.flatMap (NodeInfo.series nodeClass)).map Prod.fst =
      GaugeSeries.ofKeys (classKeys nodeClass infos) := by
  induction infos with
  | nil => rfl
  | cons info rest ih =>
      rw [List.flatMap_cons, List.map_append, ih]
      cases named : info.node.name with
      | error fault => simp [NodeInfo.series, classKeys, named, Except.toOption]
      | ok name =>
          simp [NodeInfo.series, classKeys, named, Except.toOption, GaugeSeries.ofKeys]

/-- Each series of a map whose nodes are named apart is there once. -/
theorem nodup_series {map : NodeMap} (exportable : map.Exportable) (distinct : map.Distinct) :
    (map.series.map Prod.fst).Nodup := by
  have reordered : (map.series.map Prod.fst).Perm (.nodes .spot :: .nodes .onDemand ::
      GaugeSeries.ofKeys (classKeys .spot map.spot ++ classKeys .onDemand map.onDemand)) := by
    simp only [series, byClass, List.flatMap_cons, List.flatMap_nil, List.append_nil,
      List.map_append, List.map_cons, map_series_entries]
    rw [GaugeSeries.ofKeys_append]
    exact .cons _ List.perm_middle
  have named : ∀ key ∈ classKeys .spot map.spot ++ classKeys .onDemand map.onDemand,
      ∃ name, key.1 = some name := by
    intro key member
    obtain ⟨info, inside, here⟩ : ∃ info ∈ map.spot ++ map.onDemand, info.node.name = .ok key.1 := by
      rcases List.mem_append.mp member with spot | onDemand
      · obtain ⟨-, info, entry, here⟩ := mem_classKeys_iff.mp spot
        exact ⟨info, List.mem_append_left _ entry, here⟩
      · obtain ⟨-, info, entry, here⟩ := mem_classKeys_iff.mp onDemand
        exact ⟨info, List.mem_append_right _ entry, here⟩
    obtain ⟨own, also⟩ := exportable.named info inside
    exact ⟨own, Except.ok.inj (here.symm.trans also)⟩
  have once : (classKeys .spot map.spot ++ classKeys .onDemand map.onDemand).Nodup := by
    refine List.nodup_append.mpr ⟨nodup_classKeys (distinct .spot),
      nodup_classKeys (distinct .onDemand), fun key spot other onDemand same => ?_⟩
    subst same
    have classes := (mem_classKeys_iff.mp spot).1.symm.trans (mem_classKeys_iff.mp onDemand).1
    cases classes
  have apart : ∀ nodeClass keys, .nodes nodeClass ∉ GaugeSeries.ofKeys keys := by
    intro nodeClass keys member
    obtain ⟨key, -, gauge, same⟩ := GaugeSeries.mem_ofKeys_iff.mp member
    cases same
  apply reordered.nodup_iff.mpr
  refine List.nodup_cons.mpr ⟨?_, List.nodup_cons.mpr
    ⟨apart _ _, GaugeSeries.nodup_ofKeys named once⟩⟩
  intro member
  rcases List.mem_cons.mp member with same | inside
  · cases same
  · exact apart _ _ inside

/-- A node that is named apart is shown with its own amounts. -/
theorem amount?_of_entries {map : NodeMap} (exportable : map.Exportable) (distinct : map.Distinct)
    {nodeClass : NodeClass} {info : NodeInfo} {name : String}
    (member : info ∈ map.entries nodeClass) (named : info.IsNamed name) (gauge : NodeGauge) :
    map.amount? (.ofNode gauge name nodeClass) = some (info.amount gauge) := by
  have shown := mem_series_of_entries member named gauge
  obtain ⟨n, asked⟩ := Option.isSome_iff_exists.mp (exportable.exists_mem_series_iff.mp ⟨_, shown⟩)
  have also := exportable.mem_series_of_amount? asked
  have same := List.inj_on_of_nodup_map (nodup_series exportable distinct) shown also rfl
  rw [asked, (Prod.mk.inj same).2]

/-- The changes that show entries, one after the other. -/
def assignments (entries : List (GaugeSeries × Int)) : List GaugeChange :=
  entries.flatMap fun entry =>
    [.create entry.1, .set entry.1 ((Double.ofInt? entry.2).getD 0)]

private theorem series_of_mem_assignments {entries : List (GaugeSeries × Int)} {change : GaugeChange}
    (member : change ∈ assignments entries) : change.series ∈ entries.map Prod.fst := by
  obtain ⟨entry, inside, changes⟩ := List.mem_flatMap.mp member
  rcases List.mem_cons.mp changes with rfl | set
  · exact List.mem_map_of_mem inside
  · rw [List.mem_singleton.mp set]
    exact List.mem_map_of_mem inside

/-- Assignments of other series and removals of other series leave a series alone. -/
theorem apart_of_not_mem {series : GaugeSeries} {entries : List (GaugeSeries × Int)}
    {removed : List GaugeSeries} (notShown : series ∉ entries.map Prod.fst)
    (stays : series ∉ removed) :
    ∀ change ∈ assignments entries ++ removed.map GaugeChange.remove, change.series ≠ series := by
  intro change inside same
  rcases List.mem_append.mp inside with shown | removal
  · exact notShown (same ▸ series_of_mem_assignments shown)
  · obtain ⟨other, leaves, rfl⟩ := List.mem_map.mp removal
    exact stays (same ▸ leaves)

private theorem publication_eq_assignments {map : NodeMap} (exportable : map.Exportable) :
    map.publication = (assignments map.series).map .ok := by
  rw [publication_eq exportable.each, assignments, List.map_flatMap]
  apply List.flatMap_congr
  intro entry member
  obtain ⟨value, fit⟩ := exportable.fits entry member
  rw [GaugeSeries.assign_of_some fit, fit]
  rfl

/-- The steps by which a map replaces what is shown, when the nodes that left are removed in some
order. -/
def replacement (map : NodeMap) (order : List NodeKey) : List GaugeStep :=
  map.publication ++ (GaugeSeries.withdrawal order).map .ok

section

variable {map : NodeMap} (exportable : map.Exportable) {order : List NodeKey} {gauges : Gauges}
  {series : GaugeSeries}

include exportable

private theorem replacement_eq : map.replacement order =
    (assignments map.series ++ (GaugeSeries.ofKeys order).map GaugeChange.remove).map .ok := by
  rw [replacement, publication_eq_assignments exportable, GaugeSeries.withdrawal_eq,
    ← List.map_append]

/-- All steps of a replacement can be taken. -/
theorem take_replacement : (gauges.take (map.replacement order)).1 = .ok () := by
  rw [replacement_eq exportable, Gauges.take_ok]

/-- A series that the map does not show, and that is not removed, is not changed. -/
theorem lookup_scrape_of_apart (notShown : series ∉ map.series.map Prod.fst)
    (stays : series ∉ GaugeSeries.ofKeys order) (n : Nat) :
    (gauges.scrape (map.replacement order) n).lookup series = gauges.lookup series := by
  rw [replacement_eq exportable, Gauges.scrape_ok]
  exact Gauges.lookup_changeAll_of_apart fun change inside =>
    apart_of_not_mem notShown stays change (List.mem_of_mem_take inside)

variable {was : Double} (here : gauges.lookup series = some was)

include here

/-- A series that the map shows once turns from its old value to the new one. -/
theorem lookup_scrape_of_shown (distinct : map.Distinct) {amount : Int}
    (shown : (series, amount) ∈ map.series) {becomes : Double}
    (fit : Double.ofInt? amount = some becomes) (stays : series ∉ GaugeSeries.ofKeys order) :
    ∃ turn < map.publication.length, ∀ n,
      (gauges.scrape (map.replacement order) n).lookup series =
        some (if n ≤ turn then was else becomes) := by
  have once := nodup_series exportable distinct
  obtain ⟨earlier, later, split⟩ := List.append_of_mem shown
  rw [split, List.map_append, List.map_cons, List.nodup_append, List.nodup_cons] at once
  obtain ⟨-, ⟨notLater, -⟩, different⟩ := once
  have assigned : assignments map.series = (assignments earlier ++ [.create series]) ++
      .set series becomes :: assignments later := by
    simp only [split, assignments, List.flatMap_append, List.flatMap_cons, fit, Option.getD_some,
      List.append_assoc, List.cons_append, List.nil_append]
  have spared : ∀ change ∈ assignments earlier ++ [.create series], change.Spares series := by
    intro change inside
    rcases List.mem_append.mp inside with other | created
    · exact .inl (different _ (series_of_mem_assignments other) _ List.mem_cons_self)
    · exact .inr (List.mem_singleton.mp created)
  refine ⟨(assignments earlier ++ [GaugeChange.create series]).length, ?_, fun n => ?_⟩
  · rw [publication_eq_assignments exportable, List.length_map, assigned]
    simp only [List.length_append, List.length_cons, List.length_nil]
    omega
  · rw [replacement_eq exportable, Gauges.scrape_ok, assigned, List.append_assoc, List.cons_append,
      Gauges.lookup_changeAll_take here spared
        (fun gauges => (gauges.lookup_set series series becomes).trans (if_pos rfl))
        (apart_of_not_mem notLater stays)]
    split <;> rfl

/-- A series that is removed keeps its value until all of the map is shown and its turn comes. -/
theorem lookup_scrape_of_removed (notShown : series ∉ map.series.map Prod.fst)
    (leaves : series ∈ GaugeSeries.ofKeys order) (once : (GaugeSeries.ofKeys order).Nodup) :
    ∃ turn, map.publication.length ≤ turn ∧
      (∀ n, (map.replacement order)[n]? = some (.ok (.remove series)) ↔ n = turn) ∧
      ∀ n, (gauges.scrape (map.replacement order) n).lookup series =
        if n ≤ turn then some was else none := by
  obtain ⟨earlier, later, split⟩ := List.append_of_mem leaves
  rw [split, List.nodup_append, List.nodup_cons] at once
  obtain ⟨-, ⟨notLater, -⟩, different⟩ := once
  have notEarlier : series ∉ earlier := fun inside =>
    different series inside series List.mem_cons_self rfl
  have steps : map.replacement order =
      ((assignments map.series ++ earlier.map GaugeChange.remove) ++
        .remove series :: later.map GaugeChange.remove).map .ok := by
    simp only [replacement_eq exportable, split, List.map_append, List.map_cons, List.append_assoc]
  have none : series ∉ ([] : List (GaugeSeries × Int)).map Prod.fst := List.not_mem_nil
  have before := apart_of_not_mem notShown notEarlier
  have after : ∀ change ∈ later.map GaugeChange.remove, change.series ≠ series :=
    apart_of_not_mem none notLater
  refine ⟨(assignments map.series ++ earlier.map GaugeChange.remove).length, ?_, fun n => ?_,
    fun n => ?_⟩
  · rw [publication_eq_assignments exportable, List.length_map, List.length_append]
    exact Nat.le_add_right _ _
  · rw [steps, List.getElem?_map, Option.map_eq_some_iff]
    simp only [Except.ok.injEq, exists_eq_right]
    exact getElem?_eq_some_iff_of_once (fun inside => before _ inside rfl)
      (fun inside => after _ inside rfl) n
  · rw [steps, Gauges.scrape_ok]
    refine Gauges.lookup_changeAll_take here (fun change inside => .inl (before change inside))
      (fun gauges => ?_) after n
    rw [Gauges.change, Keyed.lookup_erase]
    exact if_pos BEq.rfl

end

end NodeMap

namespace Exporter

/-- An exporter that shows a map and is about to replace it by another one, by removing the nodes that
leave in some order. -/
structure Replacing (exporter : Exporter) (old new : NodeMap) (order : List NodeKey) : Prop where
  before : old.Exportable
  distinct : old.Distinct
  next : new.Exportable
  distinctNext : new.Distinct
  any : order.Perm (exporter.gone new)
  published : exporter.published = old.keys
  shows : ∀ series amount, old.amount? series = some amount →
    exporter.gauges.lookup series = Double.ofInt? amount

/-- An exporter shows the map of its last update. -/
theorem replacing_after {port : Int} {history : List Call} {old new : NodeMap} {order : List NodeKey}
    (named : ∀ map, .update map ∈ history →
      ∀ info ∈ map.spot ++ map.onDemand, ∃ name, info.IsNamed name)
    (before : old.Exportable) (distinct : old.Distinct)
    (next : new.Exportable) (distinctNext : new.Distinct)
    (any : order.Perm (((Exporter.new port).after (history ++ [.update old])).gone new)) :
    ((Exporter.new port).after (history ++ [.update old])).Replacing old new order := by
  have after : (Exporter.new port).after (history ++ [.update old]) =
      (((Exporter.new port).after history).update old).2 := after_concat _ history (.update old)
  refine ⟨before, distinct, next, distinctNext, any, ?_, fun series amount asked => ?_⟩
  · rw [after, update_assigns _ before.each before.fits]
  · rw [after]
    exact lookup_update_of_amount? (some_of_mem_published named) before asked

namespace Replacing

variable {exporter : Exporter} {old new : NodeMap} {order : List NodeKey}
  (replacing : exporter.Replacing old new order)

include replacing

private theorem named : ∀ key ∈ exporter.published, ∃ name, key.1 = some name := by
  rw [replacing.published]
  exact fun key => NodeMap.some_of_mem_keys replacing.before.named

private theorem mem_ofKeys_iff (series : GaugeSeries) :
    series ∈ GaugeSeries.ofKeys order ↔ series ∈ GaugeSeries.ofKeys (exporter.gone new) := by
  rw [GaugeSeries.mem_ofKeys_iff, GaugeSeries.mem_ofKeys_iff]
  exact exists_congr fun key => and_congr_left fun _ => replacing.any.mem_iff

/-- Every series that is removed is removed once. -/
theorem nodup_ofKeys : (GaugeSeries.ofKeys order).Nodup := by
  apply GaugeSeries.nodup_ofKeys
  · exact fun key member =>
      replacing.named key (List.mem_of_mem_filter (replacing.any.mem_iff.mp member))
  · apply replacing.any.nodup_iff.mpr
    apply List.Nodup.filter
    rw [replacing.published]
    exact nodup_eraseDups _

variable {nodeClass : NodeClass} {info : NodeInfo} {name : String}

/-- What a series of a node of the old map shows before the first step. -/
theorem shows_node (member : info ∈ old.entries nodeClass) (here : info.IsNamed name)
    (gauge : NodeGauge) :
    ∃ was, Double.ofInt? (info.amount gauge) = some was ∧
      exporter.gauges.lookup (.ofNode gauge name nodeClass) = some was := by
  have asked := NodeMap.amount?_of_entries replacing.before replacing.distinct member here gauge
  obtain ⟨was, fit⟩ := replacing.before.fits _ (replacing.before.mem_series_of_amount? asked)
  exact ⟨was, fit, (replacing.shows _ _ asked).trans fit⟩

/-- A series of a node that stays turns once, from its old value to the new one. -/
theorem turns {gauge : NodeGauge} {was : Double}
    (shows : exporter.gauges.lookup (.ofNode gauge name nodeClass) = some was)
    (member : info ∈ new.entries nodeClass) (here : info.IsNamed name) :
    ∃ becomes, Double.ofInt? (info.amount gauge) = some becomes ∧
      ∃ turn < new.publication.length, ∀ n,
        (exporter.gauges.scrape (new.replacement order) n).lookup (.ofNode gauge name nodeClass) =
          some (if n ≤ turn then was else becomes) := by
  have asked := NodeMap.amount?_of_entries replacing.next replacing.distinctNext member here gauge
  have shown := replacing.next.mem_series_of_amount? asked
  obtain ⟨becomes, fit⟩ := replacing.next.fits _ shown
  refine ⟨becomes, fit, ?_⟩
  apply NodeMap.lookup_scrape_of_shown replacing.next shows replacing.distinctNext shown fit
  rw [replacing.mem_ofKeys_iff]
  exact not_mem_gone replacing.named replacing.next asked

private theorem not_mem_series (absent : ∀ info ∈ new.entries nodeClass, ¬ info.IsNamed name)
    (gauge : NodeGauge) : .ofNode gauge name nodeClass ∉ new.series.map Prod.fst := by
  rw [NodeMap.mem_map_series_iff replacing.next]
  exact fun ⟨info, inside, here⟩ => absent info inside here

/-- A series of a node that leaves keeps its value until its own removal. -/
theorem leaves {gauge : NodeGauge} {was : Double}
    (shows : exporter.gauges.lookup (.ofNode gauge name nodeClass) = some was)
    (member : info ∈ old.entries nodeClass) (here : info.IsNamed name)
    (absent : ∀ later ∈ new.entries nodeClass, ¬ later.IsNamed name) :
    ∃ turn, new.publication.length ≤ turn ∧
      (∀ n, (new.replacement order)[n]? = some (.ok (.remove (.ofNode gauge name nodeClass))) ↔
        n = turn) ∧
      ∀ n, (exporter.gauges.scrape (new.replacement order) n).lookup (.ofNode gauge name nodeClass) =
        if n ≤ turn then some was else none := by
  have notShown := replacing.not_mem_series absent gauge
  have asked := NodeMap.amount?_of_entries replacing.before replacing.distinct member here gauge
  apply NodeMap.lookup_scrape_of_removed replacing.next shows notShown _ replacing.nodup_ofKeys
  rw [replacing.mem_ofKeys_iff]
  apply mem_ofKeys_gone
  · rw [replacing.published, NodeMap.ofNode_mem_ofKeys_iff]
    exact ⟨_, replacing.before.mem_series_of_amount? asked⟩
  · exact fun n shown => notShown (List.mem_map_of_mem shown)

/-- The old map has no amount for a node that is not in it. -/
theorem amount?_of_absent (absent : ∀ info ∈ old.entries nodeClass, ¬ info.IsNamed name)
    (gauge : NodeGauge) : old.amount? (.ofNode gauge name nodeClass) = none := by
  apply Option.not_isSome_iff_eq_none.mp
  intro asked
  obtain ⟨amount, shown⟩ := replacing.before.exists_mem_series_iff.mpr asked
  obtain ⟨info, inside, here⟩ :=
    (NodeMap.mem_map_series_iff replacing.before).mp (List.mem_map_of_mem shown)
  exact absent info inside here

/-- A series of a node that is in neither map is left as it is. -/
theorem spares (gauge : NodeGauge) (absent : ∀ info ∈ old.entries nodeClass, ¬ info.IsNamed name)
    (absentNext : ∀ info ∈ new.entries nodeClass, ¬ info.IsNamed name) (n : Nat) :
    (exporter.gauges.scrape (new.replacement order) n).lookup (.ofNode gauge name nodeClass) =
      exporter.gauges.lookup (.ofNode gauge name nodeClass) := by
  apply NodeMap.lookup_scrape_of_apart replacing.next (replacing.not_mem_series absentNext gauge)
  rw [replacing.mem_ofKeys_iff]
  intro gone
  obtain ⟨key, listed, ofGauge, same⟩ := GaugeSeries.mem_ofKeys_iff.mp gone
  have kept : .ofNode gauge name nodeClass ∈ GaugeSeries.ofKeys old.keys := by
    rw [← replacing.published]
    exact GaugeSeries.mem_ofKeys_iff.mpr ⟨key, List.mem_of_mem_filter listed, ofGauge, same⟩
  have shown := replacing.before.exists_mem_series_iff.mp (NodeMap.ofNode_mem_ofKeys_iff.mp kept)
  rw [replacing.amount?_of_absent absent] at shown
  cases shown

end Replacing

/-- After an update that succeeds, a series of a node that is not in the map is there exactly if an earlier
update has left it behind. -/
theorem has_after_update_iff (port : Int) {history : List Call} {map : NodeMap}
    (exportable : map.Exportable) {gauge : NodeGauge} {name : String} {nodeClass : NodeClass}
    (absent : ∀ info ∈ map.entries nodeClass, ¬ info.IsNamed name) :
    ((new port).after (history ++ [.update map])).gauges.Has (.ofNode gauge name nodeClass) ↔
      (new port).LeavesBehind history (.ofNode gauge name nodeClass) := by
  have notShown : .ofNode gauge name nodeClass ∉ map.series.map Prod.fst := by
    rw [NodeMap.mem_map_series_iff exportable]
    exact fun ⟨info, inside, here⟩ => absent info inside here
  have unknown : .ofNode gauge name nodeClass ∉ GaugeSeries.ofKeys map.keys := by
    rw [NodeMap.ofNode_mem_ofKeys_iff]
    exact fun ⟨n, shown⟩ => notShown (List.mem_map_of_mem shown)
  have published : ((new port).after (history ++ [.update map])).published = map.keys := by
    rw [after_concat, perform, update_assigns _ exportable.each exportable.fits]
  have forgets : ((new port).after (history ++ [.update map])).Forgets (.ofNode gauge name nodeClass) ↔
      (new port).LeavesBehind history (.ofNode gauge name nodeClass) := by
    rw [after_concat, perform, forgets_update_of_showable exportable.showable, forgets_after_iff]
    exact and_iff_left unknown
  rw [← forgets, Forgets, published]
  exact (and_iff_left unknown).symm

/-- **Scrapes between the steps of an update.** Let an exporter have shown a map, after any earlier
calls, and let another map replace it: all steps are taken, in whichever order the nodes that left are
removed, and an update takes them in one of these orders. Between any two steps, each series of a node
that is in both maps has either the old value or the new one, and turns once. Each series of a node of
the old map alone keeps its value until all of the new map is shown and its own removal comes, which is
one single step. A series of a node of neither map is as it was, and is there exactly if an earlier update
that stopped has left it behind; so it is absent if every earlier update has succeeded. -/
theorem scraped_during_update (port : Int) {history : List Call} {old new : NodeMap}
    (named : ∀ map, .update map ∈ history →
      ∀ info ∈ map.spot ++ map.onDemand, ∃ name, info.IsNamed name)
    (before : old.Exportable) (distinct : old.Distinct)
    (next : new.Exportable) (distinctNext : new.Distinct) {order : List NodeKey}
    (any : order.Perm ((((Exporter.new port).after (history ++ [.update old]))).gone new)) :
    let exporter := (Exporter.new port).after (history ++ [.update old])
    let scrape := exporter.gauges.scrape (new.replacement order)
    (exporter.gauges.take (new.replacement order)).1 = .ok () ∧
      (order = exporter.gone new →
        (exporter.update new).2.gauges = scrape (new.replacement order).length) ∧
      ∀ gauge name nodeClass, let series := GaugeSeries.ofNode gauge name nodeClass
        (∀ info ∈ old.entries nodeClass, info.IsNamed name →
          ∃ was, Double.ofInt? (info.amount gauge) = some was ∧
            (∀ later ∈ new.entries nodeClass, later.IsNamed name →
              ∃ becomes, Double.ofInt? (later.amount gauge) = some becomes ∧
                ∃ turn < new.publication.length, ∀ n,
                  (scrape n).lookup series = some (if n ≤ turn then was else becomes)) ∧
            ((∀ later ∈ new.entries nodeClass, ¬ later.IsNamed name) →
              ∃ turn, new.publication.length ≤ turn ∧
                (∀ n, (new.replacement order)[n]? = some (.ok (.remove series)) ↔ n = turn) ∧
                ∀ n, (scrape n).lookup series = if n ≤ turn then some was else none)) ∧
        ((∀ info ∈ old.entries nodeClass ++ new.entries nodeClass, ¬ info.IsNamed name) →
          ∀ n, (scrape n).lookup series = exporter.gauges.lookup series ∧
            ((scrape n).Has series ↔ (Exporter.new port).LeavesBehind history series) ∧
            ((∀ map, .update map ∈ history → map.Showable) → (scrape n).lookup series = none)) := by
  intro exporter scrape
  have replacing : exporter.Replacing old new order :=
    replacing_after named before distinct next distinctNext any
  refine ⟨NodeMap.take_replacement next, fun same => ?_, fun gauge name nodeClass => ?_⟩
  · subst same
    rw [update_gauges]
    exact congrArg (fun steps => (exporter.gauges.take steps).2) List.take_length.symm
  intro series
  refine ⟨fun info member here => ?_, fun absent n => ?_⟩
  · obtain ⟨was, fit, shows⟩ := replacing.shows_node member here gauge
    refine ⟨was, fit, fun later inside also => ?_, fun left => ?_⟩
    · exact replacing.turns shows inside also
    · exact replacing.leaves shows member here left
  · have absentOld := fun info inside => absent info (List.mem_append_left _ inside)
    have absentNew := fun info inside => absent info (List.mem_append_right _ inside)
    have unchanged := replacing.spares gauge absentOld absentNew n
    have there : (scrape n).Has series ↔ (Exporter.new port).LeavesBehind history series := by
      rw [Gauges.Has, unchanged]
      exact has_after_update_iff port before absentOld
    refine ⟨unchanged, there, fun showable => ?_⟩
    apply Option.not_isSome_iff_eq_none.mp
    intro found
    obtain ⟨earlier, map, later, split, stops, -⟩ := there.mp found
    apply stops (showable map _)
    rw [split]
    exact List.mem_append_right _ List.mem_cons_self

end Exporter

namespace TwinNode

/-- The twin while it is alone in its class, next to a node that is to leave. -/
def leaving : NodeMap := ⟨earlier.spot, [⟨node, [], 100, 3900⟩]⟩

def left : NodeMap := ⟨[], [⟨node, [], 300, 3700⟩]⟩

private theorem earlier_exportable : earlier.Exportable :=
  exportable_of_fits (by decide +kernel) (by decide +kernel)

private theorem leaving_exportable : leaving.Exportable :=
  exportable_of_fits (by decide +kernel) (by decide +kernel)

private theorem left_exportable : left.Exportable :=
  exportable_of_fits (by decide +kernel) (by decide +kernel)

private theorem leaving_distinct : leaving.Distinct := by
  intro nodeClass
  cases nodeClass <;> decide +kernel

private theorem left_distinct : left.Distinct := by
  intro nodeClass
  cases nodeClass <;> decide +kernel

end TwinNode

/-- The twin turns to its new account, the other node leaves, and a node of neither map is absent. -/
theorem Exporter.scraped_during_update_twinNode :
    let exporter := (new 9235).after ([.update TwinNode.earlier] ++ [.update TwinNode.leaving])
    let scrape := exporter.gauges.scrape (TwinNode.left.replacement (exporter.gone TwinNode.left))
    (∃ turn, ∀ n, (scrape n).lookup (.ofNode .requestedCpu "twin" .onDemand) =
        Double.ofInt? (if n ≤ turn then 100 else 300)) ∧
      (∃ turn, ∀ n, (scrape n).lookup (.ofNode .freeCpu "gone" .spot) =
        if n ≤ turn then Double.ofInt? 500 else none) ∧
      ∀ n, (scrape n).lookup (.ofNode .freeCpu "huge" .onDemand) = none := by
  intro exporter scrape
  have exportable : ∀ map, .update map ∈ [Call.update TwinNode.earlier] → map.Exportable := by
    intro map member
    obtain rfl := Call.update.inj (List.mem_singleton.mp member)
    exact TwinNode.earlier_exportable
  obtain ⟨-, -, series⟩ := scraped_during_update 9235 (fun map member => (exportable map member).named)
    TwinNode.leaving_exportable TwinNode.leaving_distinct TwinNode.left_exportable
    TwinNode.left_distinct (.refl _)
  refine ⟨?_, ?_, fun n => ?_⟩
  · obtain ⟨was, fit, turns, -⟩ := (series .requestedCpu "twin" .onDemand).1 _
      List.mem_cons_self (by decide +kernel)
    obtain ⟨becomes, fitNext, turn, -, shows⟩ := turns _ List.mem_cons_self (by decide +kernel)
    refine ⟨turn, fun n => (shows n).trans ?_⟩
    split
    · exact fit.symm
    · exact fitNext.symm
  · obtain ⟨was, fit, -, removed⟩ := (series .freeCpu "gone" .spot).1 _
      List.mem_cons_self (by decide +kernel)
    obtain ⟨turn, -, -, shows⟩ := removed fun later inside => absurd inside List.not_mem_nil
    refine ⟨turn, fun n => (shows n).trans ?_⟩
    rw [show Double.ofInt? 500 = some was from fit]
  · obtain ⟨-, -, absent⟩ := (series .freeCpu "huge" .onDemand).2 (by decide +kernel) n
    exact absent fun map member => (exportable map member).showable

/-- The update with the huge node stops at its free CPU. The updates after it succeed, and the huge node is
in none of their maps, but the series that was begun is there before, between and after all their steps. -/
theorem Exporter.begun_series_stays_hugeNode :
    let exporter := (new 9235).after ([.update HugeNode.map] ++ [.update TwinNode.leaving])
    let scrape := exporter.gauges.scrape (TwinNode.left.replacement (exporter.gone TwinNode.left))
    (((new 9235).after [.update HugeNode.map]).update TwinNode.leaving).1 = .ok () ∧
      (exporter.update TwinNode.left).1 = .ok () ∧
      (∀ info ∈ TwinNode.leaving.entries .onDemand ++ TwinNode.left.entries .onDemand,
        ¬ info.IsNamed "huge") ∧
      (TwinNode.leaving.Exportable ∧ TwinNode.leaving.Distinct) ∧
      (TwinNode.left.Exportable ∧ TwinNode.left.Distinct) ∧
      ∀ n, (scrape n).lookup (.ofNode .freeCpu "huge" .onDemand) = some 0 := by
  intro exporter scrape
  have named : ∀ map, .update map ∈ [Call.update HugeNode.map] →
      ∀ info ∈ map.spot ++ map.onDemand, ∃ name, info.IsNamed name := by
    intro map member info inside
    obtain rfl := Call.update.inj (List.mem_singleton.mp member)
    obtain rfl := List.mem_singleton.mp inside
    exact ⟨"huge", by decide +kernel⟩
  have replacing : exporter.Replacing TwinNode.leaving TwinNode.left (exporter.gone TwinNode.left) :=
    replacing_after named TwinNode.leaving_exportable TwinNode.leaving_distinct
      TwinNode.left_exportable TwinNode.left_distinct (.refl _)
  have done : ∀ {map : NodeMap} (exporter : Exporter), map.Exportable → (exporter.update map).1 = .ok () :=
    fun exporter exportable => by rw [exporter.update_of_showable exportable.showable]
  refine ⟨done _ TwinNode.leaving_exportable, done _ TwinNode.left_exportable, by decide +kernel,
    ⟨TwinNode.leaving_exportable, TwinNode.leaving_distinct⟩,
    ⟨TwinNode.left_exportable, TwinNode.left_distinct⟩, fun n => ?_⟩
  rw [replacing.spares .freeCpu (by decide +kernel) (by decide +kernel)]
  decide +kernel

end SpotCapacity
