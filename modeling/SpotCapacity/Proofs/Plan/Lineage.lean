import SpotCapacity.Proofs.NodeMap.Arrangement
import SpotCapacity.Proofs.Plan.Board

/-!
# Planning on shared pod lists

What the steps of a plan make of each node, told without the store: the pods it started from and those
that were added to it, or to the node it was copied from before the copy was made (`Lineage`). As long
as none of these additions failed, the node has exactly these pods, its totals are those that counting
them from the start gives, and its pods can be put in order (`History.after_sound`). A plan that changes
only copies leaves the map that was copied as it was. The nodes of a plan whose lists hold the nodes
themselves are among these (`History.Carries`).
-/

namespace SpotCapacity

/-- Where a node comes from: its pods with those that were added since, and whether all of these
additions succeeded. -/
structure Lineage where
  node : Node
  pods : List Pod
  intact : Bool

namespace Lineage

/-- The lineage of a node that starts from its pods. -/
def start (node : Node) (pods : List Pod) : Lineage := ⟨node, pods, true⟩

/-- The lineage of a node to which a pod was added. -/
def addPod (pod : Pod) (outcome : StepOutcome) (lineage : Lineage) : Lineage :=
  ⟨lineage.node, lineage.pods ++ [pod], lineage.intact && outcome = .done⟩

/-- A node is as its lineage tells: a right account of its pods, unless an addition failed. -/
structure Tells (lineage : Lineage) (info : NodeInfo) : Prop where
  same : info.node = lineage.node
  kept : lineage.intact = true → info.pods.Perm lineage.pods ∧ info.Counted

private theorem tells_start {info : NodeInfo} (counted : info.Counted) :
    (start info.node info.pods).Tells info :=
  ⟨rfl, fun _ => ⟨.refl _, counted⟩⟩

private theorem Tells.addPod_ok {lineage : Lineage} {info changed : NodeInfo} {pod : Pod}
    (tells : lineage.Tells info) (added : info.addPod pod = (.ok (), changed)) :
    (lineage.addPod pod .done).Tells changed := by
  rw [NodeInfo.addPod] at added
  cases counted : NodeInfo.count info.node (info.pods ++ [pod]) with
  | error fault => simp only [counted, Prod.mk.injEq, reduceCtorEq, false_and] at added
  | ok totals =>
      simp only [counted, Prod.mk.injEq, true_and] at added
      subst added
      refine ⟨tells.same, fun intact => ⟨?_, NodeInfo.count_eq_ok_iff.mp counted⟩⟩
      have before : lineage.intact = true := (Bool.and_eq_true_iff.mp intact).1
      exact (tells.kept before).1.append_right [pod]

/-- A pod that cannot be counted breaks the lineage. -/
theorem Tells.addPod_error {lineage : Lineage} {info changed : NodeInfo} {pod : Pod}
    {fault : Fault} (tells : lineage.Tells info)
    (added : info.addPod pod = (.error fault, changed)) :
    (lineage.addPod pod (.failed fault)).Tells changed := by
  rw [NodeInfo.addPod] at added
  cases counted : NodeInfo.count info.node (info.pods ++ [pod]) with
  | ok totals => simp only [counted, Prod.mk.injEq, reduceCtorEq, false_and] at added
  | error fault =>
      simp only [counted, Prod.mk.injEq] at added
      obtain ⟨-, rfl⟩ := added
      refine ⟨tells.same, fun intact => ?_⟩
      simp only [addPod, reduceCtorEq, decide_false, Bool.and_false, Bool.false_eq_true] at intact

private theorem Tells.sortPods {lineage : Lineage} {info sorted : NodeInfo} (tells : lineage.Tells info)
    (order : info.sortPods = .ok sorted) : lineage.Tells sorted := by
  obtain ⟨pods, came, same⟩ := Outcome.bind_eq_ok_iff.mp order
  cases same
  have ordered := (sortByCpu_stablyOrdered came).perm
  refine ⟨tells.same, fun intact => ?_⟩
  obtain ⟨whole, counted⟩ := tells.kept intact
  exact ⟨ordered.trans whole, counted.perm ordered⟩

end Lineage

/-- A store with the lineages of its nodes. -/
structure History where
  store : Store
  lineages : List Lineage

namespace History

/-- The lineages after a step that had an outcome. Ordering pods changes no lineage. -/
def extend (lineages : List Lineage) : StoreStep → StepOutcome → List Lineage
  | .ofPods node pods, .done => lineages ++ [.start node pods]
  | .copy address, .done => lineages ++ [address].filterMap (lineages[·]?)
  | .copyAll addresses, .done => lineages ++ addresses.filterMap (lineages[·]?)
  | .addPod address pod, outcome => lineages.modify address (·.addPod pod outcome)
  | _, _ => lineages

def step (history : History) (step : StoreStep) : History :=
  ⟨(history.store.step step).2, extend history.lineages step (history.store.step step).1⟩

def after (history : History) (steps : List StoreStep) : History := steps.foldl step history

def ofMap (map : NodeMap) : History where
  store := .ofInfos (map.spot ++ map.onDemand)
  lineages := (map.spot ++ map.onDemand).map fun info => .start info.node info.pods

/-- All nodes are as their lineages tell. -/
def Sound (history : History) : Prop :=
  List.Forall₂ Lineage.Tells history.lineages history.store.infos

/-- What a step does to one node and its lineage. -/
private theorem forall₂_modify_set {relation : Lineage → NodeInfo → Prop} {lineages : List Lineage}
    {infos : List NodeInfo} (related : List.Forall₂ relation lineages infos) {address : Nat}
    {info changed : NodeInfo} (here : infos[address]? = some info) {change : Lineage → Lineage}
    (kept : ∀ lineage, relation lineage info → relation (change lineage) changed) :
    List.Forall₂ relation (lineages.modify address change) (infos.set address changed) := by
  induction related generalizing address with
  | nil => cases here
  | cons first rest ih =>
      cases address with
      | zero =>
          cases here
          exact .cons (kept _ first) rest
      | succ address => exact .cons first (ih here)

private theorem forall₂_filterMap {relation : Lineage → NodeInfo → Prop} {lineages : List Lineage}
    {infos : List NodeInfo} (related : List.Forall₂ relation lineages infos)
    (addresses : List Nat) :
    List.Forall₂ relation (addresses.filterMap (lineages[·]?))
      (addresses.filterMap (infos[·]?)) := by
  induction addresses with
  | nil => exact .nil
  | cons address rest ih =>
      by_cases inside : address < lineages.length
      · have also : address < infos.length := related.length_eq ▸ inside
        have left : lineages[address]? = some lineages[address] := List.getElem?_eq_getElem inside
        have right : infos[address]? = some infos[address] := List.getElem?_eq_getElem also
        rw [List.filterMap_cons_some left, List.filterMap_cons_some right]
        exact .cons (related.get inside also) ih
      · have left : lineages[address]? = none := List.getElem?_eq_none (Nat.le_of_not_lt inside)
        have right : infos[address]? = none :=
          List.getElem?_eq_none (related.length_eq ▸ Nat.le_of_not_lt inside)
        rw [List.filterMap_cons_none left, List.filterMap_cons_none right]
        exact ih

/-- A step keeps every node as its lineage tells. -/
theorem step_sound {history : History} (sound : history.Sound) (step : StoreStep) :
    (history.step step).Sound := by
  rw [Sound, History.step]
  cases step with
  | ofPods node pods =>
      cases account : NodeInfo.ofPods node pods with
      | error fault =>
          rw [Store.step_ofPods_of_error account]
          exact sound
      | ok info =>
          obtain ⟨rfl, rfl, counted⟩ := NodeInfo.ofPods_eq_ok_iff.mp account
          rw [Store.step_ofPods_of_ok account, Store.infos_insert]
          exact List.rel_append sound (.cons (Lineage.tells_start counted) .nil)
  | copy address =>
      rw [Store.step]
      split
      · rw [Store.infos_copyAll]
        exact List.rel_append sound (forall₂_filterMap sound [address])
      · exact sound
  | copyAll addresses =>
      rw [Store.step]
      split
      · rw [Store.infos_copyAll]
        exact List.rel_append sound (forall₂_filterMap sound addresses)
      · exact sound
  | addPod address pod =>
      cases here : history.store.read? address with
      | none =>
          have outside : history.lineages.length ≤ address := by
            rw [sound.length_eq]
            exact List.getElem?_eq_none_iff.mp here
          rw [Store.step_addPod_of_none here, extend, List.modify_eq_self outside]
          exact sound
      | some info =>
          rcases added : info.addPod pod with ⟨fault | done, changed⟩
          · rw [Store.step_addPod_of_error here added, Store.infos_rebind]
            exact forall₂_modify_set sound here fun lineage tells => tells.addPod_error added
          · rw [Store.step_addPod_of_ok here added, Store.infos_rebind]
            exact forall₂_modify_set sound here fun lineage tells => tells.addPod_ok added
  | sortPods address =>
      cases here : history.store.read? address with
      | none =>
          rw [Store.step_sortPods_of_none here]
          exact sound
      | some info =>
          cases order : info.sortPods with
          | error fault =>
              rw [Store.step_sortPods_of_error here order]
              exact sound
          | ok sorted =>
              -- Ordering changes the node but not its lineage.
              have same : extend history.lineages (.sortPods address) .done =
                  history.lineages.modify address id := (List.modify_id _ _).symm
              rw [Store.step_sortPods_of_ok here order, Store.infos_rebind, same]
              exact forall₂_modify_set sound here fun lineage tells => tells.sortPods order

/-- All nodes stay as their lineages tell, however many steps are taken. -/
theorem after_sound {history : History} (sound : history.Sound) (steps : List StoreStep) :
    (history.after steps).Sound := by
  induction steps generalizing history with
  | nil => exact sound
  | cons step rest ih => exact ih (step_sound sound step)

private theorem infos_ofMap (map : NodeMap) : (ofMap map).store.infos = map.spot ++ map.onDemand :=
  Store.infos_ofInfos _

/-- The nodes of a map that are counted right are as their lineages tell. -/
theorem ofMap_sound {map : NodeMap} (counted : ∀ info ∈ map.spot ++ map.onDemand, info.Counted) :
    (ofMap map).Sound := by
  rw [Sound, infos_ofMap]
  refine List.forall₂_map_left_iff.mpr (List.forall₂_same.mpr ?_)
  exact fun info member => Lineage.tells_start (counted info member)

/-- A plan leaves the nodes that none of its steps names. -/
theorem read?_after_of_apart {history : History} {address : Nat} {info : NodeInfo}
    (here : history.store.read? address = some info) {steps : List StoreStep}
    (apart : ∀ step ∈ steps, step.target? ≠ some address) :
    (history.after steps).store.read? address = some info := by
  induction steps generalizing history with
  | nil => exact here
  | cons step rest ih =>
      obtain ⟨first, later⟩ := List.forall_mem_cons.mp apart
      exact ih (history.store.read?_step_of_apart step here first) later

/-- The lists of a plan are read in the store of a history. -/
def Carries (history : History) (plan : Plan) : Prop :=
  ∃ names, Board.Shows ⟨history.store, names⟩ plan

private theorem ofMap_carries (map : NodeMap) : (ofMap map).Carries map.plan :=
  ⟨_, Board.ofMap_shows map⟩

/-- What is carried by a history is read in its store, and additions have the same outcomes there. -/
theorem Carries.exists_address {history : History} {plan : Plan} (carries : history.Carries plan)
    {list : String} {index : Nat} {info : NodeInfo} (shown : plan.info? list index = some info) :
    ∃ address, history.store.read? address = some info ∧
      ∀ pod, (history.store.step (.addPod address pod)).1 = (plan.addPod list index pod).1 := by
  obtain ⟨names, shows⟩ := carries
  obtain ⟨-, absent⟩ | ⟨address, other, named, also, here⟩ := shows.place list index
  · cases absent.symm.trans shown
  · obtain rfl : other = info := Option.some.inj (also.symm.trans shown)
    refine ⟨address, here, fun pod => ?_⟩
    rw [← (shows.addPod list index pod).1, Board.stepAt, named]

/-- Steps of a plan that count the pods of the nodes they make are steps on the store. -/
theorem exists_store_eq {history : History} {board : Board} (same : board.store = history.store)
    {planned : List PlanStep} (counted : ∀ step ∈ planned, step.Counted) :
    ∃ taken, (board.run planned).2.store = (history.after taken).store := by
  induction planned generalizing history board with
  | nil => exact ⟨[], same⟩
  | cons step rest ih =>
      obtain ⟨first, later⟩ := List.forall_mem_cons.mp counted
      obtain stays | ⟨taken, moves⟩ := board.store_step first
      · exact ih (stays.trans same) later
      · have next : (board.step step).2.store = (history.step taken).store := by
          rw [moves, same]
          rfl
        obtain ⟨others, reached⟩ := ih next later
        exact ⟨taken :: others, reached⟩

/-- However a plan goes on that is carried by a history, some steps on the store carry it on. -/
theorem Carries.run {history : History} {plan : Plan} (carries : history.Carries plan)
    {planned : List PlanStep} (counted : ∀ step ∈ planned, step.Counted) :
    ∃ taken, (history.after taken).Carries (plan.run planned).2 := by
  obtain ⟨names, shows⟩ := carries
  obtain ⟨-, last⟩ := Board.run_shows shows planned
  have begins : Board.store ⟨history.store, names⟩ = history.store := rfl
  obtain ⟨taken, same⟩ := exists_store_eq begins counted
  refine ⟨taken, (Board.run ⟨history.store, names⟩ planned).2.names, ?_⟩
  rw [← same]
  exact last

end History

/-- The map that is read at the addresses of the nodes of a map from which a plan started. -/
def Store.mapAt (store : Store) (map : NodeMap) : NodeMap where
  spot := store.infos.take map.spot.length
  onDemand := (store.infos.drop map.spot.length).take map.onDemand.length

namespace History

/-- A plan that changes only copies leaves the map from which it started. -/
theorem mapAt_after {map : NodeMap} {steps : List StoreStep}
    (copies : ∀ step ∈ steps, ∀ address, step.target? = some address →
      (map.spot ++ map.onDemand).length ≤ address) :
    ((ofMap map).after steps).store.mapAt map = map := by
  have kept : ∀ address, (inside : address < (map.spot ++ map.onDemand).length) →
      ((ofMap map).after steps).store.infos[address]? =
        some (map.spot ++ map.onDemand)[address] := by
    intro address inside
    have here : (ofMap map).store.read? address = some (map.spot ++ map.onDemand)[address] := by
      rw [Store.read?, infos_ofMap, List.getElem?_eq_getElem inside]
    refine read?_after_of_apart here fun step member target => ?_
    exact absurd inside (Nat.not_lt.mpr (copies step member address target))
  obtain ⟨others, whole⟩ : map.spot ++ map.onDemand <+:
      ((ofMap map).after steps).store.infos :=
    List.prefix_iff_getElem?.mpr kept
  rw [List.append_assoc] at whole
  rw [Store.mapAt, ← whole, List.take_left, List.drop_left, List.take_left]

/-- **Plans keep their accounts.** Whatever the steps of a plan that starts from a built map, every
node to which no addition failed, neither to itself nor to what it was copied from, has the pods that
its lineage tells, with the totals that counting them from the start gives; its pods can be put in
order, without a change of the totals. A step leaves all nodes that it does not name, also those that
share a pod list with the one it changes, and a plan on copies leaves the map as it was. The lists of every
plan that is carried out on the lists of the map are read in such a store. -/
theorem accounts_after {config : NodeMapConfig} {lister : PodLister} {schedule : List PoolMove}
    {nodes : List Node} {session : Session} {map : NodeMap}
    (built : (NodeMap.build config lister schedule nodes session).1 = .ok map)
    (steps : List StoreStep) :
    let history := (ofMap map).after steps
    (∀ address info, history.store.read? address = some info →
      ∃ lineage, history.lineages[address]? = some lineage ∧ info.node = lineage.node ∧
        (lineage.intact = true →
          info.pods.Perm lineage.pods ∧ NodeInfo.ofPods info.node info.pods = .ok info ∧
          ∃ sorted : NodeInfo, (history.store.step (.sortPods address)).1 = .done ∧
            (history.store.step (.sortPods address)).2.read? address = some sorted ∧
            NodeInfo.ofPods info.node sorted.pods = .ok sorted ∧
            sorted.requestedCpu = info.requestedCpu ∧ sorted.freeCpu = info.freeCpu ∧
            StablyOrdered Pod.cpu (· ≥ ·) info.pods sorted.pods)) ∧
      (∀ step address info, history.store.read? address = some info →
        step.target? ≠ some address → (history.store.step step).2.read? address = some info) ∧
      ((∀ step ∈ steps, ∀ address, step.target? = some address →
          (map.spot ++ map.onDemand).length ≤ address) →
        (history.store.mapAt map).describe = map.describe ∧
          (history.store.mapAt map).summary = map.summary) ∧
      (∀ planned : List PlanStep, (∀ step ∈ planned, step.Counted) →
        ∃ taken, ((ofMap map).after taken).Carries (map.plan.run planned).2) := by
  intro history
  have counted : ∀ info ∈ map.spot ++ map.onDemand, info.Counted :=
    NodeMap.build_yields_counted schedule nodes session map built
  have sound : history.Sound := after_sound (ofMap_sound counted) steps
  refine ⟨?_, fun step address info here apart => ?_, fun copies => ?_, fun planned counts => ?_⟩
  · intro address info here
    obtain ⟨inside, rfl⟩ := List.getElem?_eq_some_iff.mp here
    have also : address < history.lineages.length := sound.length_eq ▸ inside
    have tells : history.lineages[address].Tells history.store.infos[address] :=
      sound.get also inside
    refine ⟨_, List.getElem?_eq_getElem also, tells.same, fun intact => ?_⟩
    obtain ⟨whole, right⟩ := tells.kept intact
    obtain ⟨sorted, order, still, sameNode, requested, free, ordered⟩ := right.sortPods
    have step := Store.step_sortPods_of_ok here order
    refine ⟨whole, NodeInfo.ofPods_eq_ok_iff.mpr ⟨rfl, rfl, right⟩, sorted, ?_, ?_, ?_,
      requested, free, ordered⟩
    · rw [step]
    · rw [step, Store.read?, Store.infos_rebind]
      exact List.getElem?_set_self inside
    · exact NodeInfo.ofPods_eq_ok_iff.mpr ⟨sameNode, rfl, still⟩
  · exact history.store.read?_step_of_apart step here apart
  · have same : history.store.mapAt map = map := mapAt_after copies
    rw [same]
    exact ⟨rfl, rfl⟩
  · exact (ofMap_carries map).run counts

end History

namespace SmallFleet

/-- A plan that moves the large pod to a copy of the on-demand node, of which another copy is made
before. -/
def planning : List StoreStep := [.copyAll [0, 1, 2], .copy 5, .addPod 5 large, .sortPods 5]

end SmallFleet

/-- The large pod is on the copy that it was moved to, and the map is as it was. -/
theorem History.accounts_after_smallFleet :
    let history := (ofMap SmallFleet.map).after SmallFleet.planning
    (∃ info, history.store.read? 5 = some info ∧ info.node = SmallFleet.stable ∧
      info.pods.Perm [SmallFleet.small, SmallFleet.large] ∧
      NodeInfo.ofPods info.node info.pods = .ok info) ∧
      (history.store.mapAt SmallFleet.map).describe = SmallFleet.map.describe ∧
      (history.store.mapAt SmallFleet.map).summary = SmallFleet.map.summary := by
  intro history
  obtain ⟨accounts, -, copies, -⟩ := accounts_after SmallFleet.built SmallFleet.planning
  have told : history.lineages[5]?.map (fun lineage => (lineage.node, lineage.pods)) =
      some (SmallFleet.stable, [SmallFleet.small, SmallFleet.large]) := rfl
  have unbroken : history.lineages[5]?.map Lineage.intact = some true := by decide +kernel
  have present : (history.store.read? 5).isSome = true := by decide +kernel
  obtain ⟨info, here⟩ := Option.isSome_iff_exists.mp present
  obtain ⟨lineage, same, node, right⟩ := accounts 5 info here
  rw [same] at told unbroken
  obtain ⟨sameNode, samePods⟩ := Prod.mk.inj (Option.some.inj told)
  obtain ⟨pods, counted, -⟩ := right (Option.some.inj unbroken)
  exact ⟨⟨info, here, node.trans sameNode, samePods ▸ pods, counted⟩, copies (by decide)⟩

end SpotCapacity
