import SpotCapacity.Plan
import SpotCapacity.Proofs.Accounting

/-!
# Shared pod lists

Accounted nodes as records that point to their pod lists. A copy of a node points to the very list of
its source; adding a pod or ordering the pods makes a new list and leaves the old one to those that
share it. The nodes that the records stand for (`Store.infos`) change by these steps as values do, each
step changing the one node it names (`Store.infos_step`, `Store.read?_step_of_apart`).
-/

namespace SpotCapacity

/-- The fields of an accounted node, with its pods at a place in a list of pod lists. -/
structure NodeRecord where
  node : Node
  pods : Nat
  requestedCpu : Int
  freeCpu : Int

/-- Pod lists and the records that share them. -/
structure Store where
  lists : List (List Pod)
  records : List NodeRecord
  listed : ∀ record ∈ records, record.pods < lists.length

/-- A step on accounted nodes, which are named by their addresses. -/
inductive StoreStep where
  | ofPods (node : Node) (pods : List Pod)
  | copy (address : Nat)
  | copyAll (addresses : List Nat)
  | addPod (address : Nat) (pod : Pod)
  | sortPods (address : Nat)

/-- The node that a step changes, if it changes one. -/
def StoreStep.target? : StoreStep → Option Nat
  | .addPod address _ => some address
  | .sortPods address => some address
  | _ => none

namespace Store

def empty : Store := ⟨[], [], fun _ member => absurd member List.not_mem_nil⟩

def info (store : Store) (record : NodeRecord) : NodeInfo :=
  ⟨record.node, store.lists[record.pods]?.getD [], record.requestedCpu, record.freeCpu⟩

/-- The nodes that the records stand for, by address. -/
def infos (store : Store) : List NodeInfo := store.records.map store.info

def read? (store : Store) (address : Nat) : Option NodeInfo := store.infos[address]?

/-- The record of a node with a new pod list of its own. -/
def record (store : Store) (info : NodeInfo) : NodeRecord :=
  ⟨info.node, store.lists.length, info.requestedCpu, info.freeCpu⟩

def insert (store : Store) (info : NodeInfo) : Store where
  lists := store.lists ++ [info.pods]
  records := store.records ++ [store.record info]
  listed := by
    intro record member
    rw [List.length_append, List.length_singleton]
    cases List.mem_append.mp member with
    | inl old => exact Nat.lt_succ_of_lt (store.listed record old)
    | inr new => exact List.mem_singleton.mp new ▸ Nat.lt_succ_self _

/-- Gives the node at an address a pod list of its own and new totals. -/
def rebind (store : Store) (address : Nat) (info : NodeInfo) : Store where
  lists := store.lists ++ [info.pods]
  records := store.records.set address (store.record info)
  listed := by
    intro record member
    rw [List.length_append, List.length_singleton]
    cases List.mem_or_eq_of_mem_set member with
    | inl old => exact Nat.lt_succ_of_lt (store.listed record old)
    | inr new => exact new ▸ Nat.lt_succ_self _

/-- Adds copies of the nodes at some addresses; a copy shares the pod list of its source. -/
def copyAll (store : Store) (addresses : List Nat) : Store where
  lists := store.lists
  records := store.records ++ addresses.filterMap (store.records[·]?)
  listed := by
    intro record member
    cases List.mem_append.mp member with
    | inl old => exact store.listed record old
    | inr new =>
        obtain ⟨address, -, found⟩ := List.mem_filterMap.mp new
        exact store.listed record (List.mem_of_getElem? found)

/-- A store of nodes, each with a pod list of its own. -/
def ofInfos (infos : List NodeInfo) : Store := infos.foldl insert empty

/-- Takes a step. A step that names an address where no node is does nothing. -/
def step (store : Store) : StoreStep → StepOutcome × Store
  | .ofPods node pods =>
    match NodeInfo.ofPods node pods with
    | .ok info => (.done, store.insert info)
    | .error fault => (.failed fault, store)
  | .copy address =>
    if address < store.records.length then (.done, store.copyAll [address]) else (.missing, store)
  | .copyAll addresses =>
    if ∀ address ∈ addresses, address < store.records.length then
      (.done, store.copyAll addresses)
    else (.missing, store)
  | .addPod address pod =>
    match store.read? address with
    | none => (.missing, store)
    | some info =>
      match info.addPod pod with
      | (.ok (), info) => (.done, store.rebind address info)
      | (.error fault, info) => (.failed fault, store.rebind address info)
  | .sortPods address =>
    match store.read? address with
    | none => (.missing, store)
    | some info =>
      match info.sortPods with
      | .ok info => (.done, store.rebind address info)
      | .error fault => (.failed fault, store)

section

variable {store : Store} {address : Nat} {pod : Pod} {info changed : NodeInfo} {fault : Fault}

/-- Nodes that can be accounted are added to the store. -/
theorem step_ofPods_of_ok {node : Node} {pods : List Pod}
    (account : NodeInfo.ofPods node pods = .ok info) :
    store.step (.ofPods node pods) = (.done, store.insert info) := by
  simp only [step, account]

/-- Nodes that cannot be accounted leave the store as it is. -/
theorem step_ofPods_of_error {node : Node} {pods : List Pod}
    (account : NodeInfo.ofPods node pods = .error fault) :
    store.step (.ofPods node pods) = (.failed fault, store) := by
  simp only [step, account]

theorem step_addPod_of_none (absent : store.read? address = none) :
    store.step (.addPod address pod) = (.missing, store) := by
  rw [step, absent]

/-- An addition that succeeds binds the node again, to what it became. -/
theorem step_addPod_of_ok (here : store.read? address = some info)
    (added : info.addPod pod = (.ok (), changed)) :
    store.step (.addPod address pod) = (.done, store.rebind address changed) := by
  simp only [step, here, added]

/-- An addition that fails binds the node again too. -/
theorem step_addPod_of_error (here : store.read? address = some info)
    (added : info.addPod pod = (.error fault, changed)) :
    store.step (.addPod address pod) = (.failed fault, store.rebind address changed) := by
  simp only [step, here, added]

theorem step_sortPods_of_none (absent : store.read? address = none) :
    store.step (.sortPods address) = (.missing, store) := by
  rw [step, absent]

/-- An ordering that succeeds binds the node again. -/
theorem step_sortPods_of_ok (here : store.read? address = some info)
    (order : info.sortPods = .ok changed) :
    store.step (.sortPods address) = (.done, store.rebind address changed) := by
  simp only [step, here, order]

/-- An ordering that fails leaves the store as it is. -/
theorem step_sortPods_of_error (here : store.read? address = some info)
    (order : info.sortPods = .error fault) :
    store.step (.sortPods address) = (.failed fault, store) := by
  simp only [step, here, order]

end

/-- A pod list that is new is not seen through an old record. -/
theorem info_of_listed (store : Store) {record : NodeRecord}
    (listed : record.pods < store.lists.length) {later : Store} {pods : List Pod}
    (grown : later.lists = store.lists ++ [pods]) : later.info record = store.info record := by
  rw [info, info, grown, List.getElem?_append_left listed]

private theorem info_record (store : Store) {later : Store} {info : NodeInfo}
    (grown : later.lists = store.lists ++ [info.pods]) :
    later.info (store.record info) = info := by
  rw [Store.info, grown, record, List.getElem?_append_right (Nat.le_refl _), Nat.sub_self]
  rfl

@[simp] theorem length_infos (store : Store) : store.infos.length = store.records.length :=
  List.length_map _

/-- A node that is inserted comes after all others. -/
theorem infos_insert (store : Store) (info : NodeInfo) :
    (store.insert info).infos = store.infos ++ [info] := by
  have old : store.records.map (store.insert info).info = store.records.map store.info :=
    List.map_congr_left fun record member => store.info_of_listed (store.listed record member) rfl
  have new : (store.insert info).info (store.record info) = info := store.info_record rfl
  rw [infos, insert, List.map_append, List.map_singleton]
  exact congrArg₂ (· ++ [·]) old new

/-- A store that is made of nodes stands for these nodes. -/
theorem infos_ofInfos (infos : List NodeInfo) : (ofInfos infos).infos = infos := by
  have added : ∀ store : Store, (infos.foldl insert store).infos = store.infos ++ infos := by
    induction infos with
    | nil => exact fun store => (List.append_nil _).symm
    | cons info rest ih =>
        intro store
        rw [List.foldl_cons, ih, infos_insert, List.append_assoc, List.singleton_append]
  exact (added empty).trans (List.nil_append _)

/-- A node that is bound again is changed, and no other one is. -/
theorem infos_rebind (store : Store) (address : Nat) (info : NodeInfo) :
    (store.rebind address info).infos = store.infos.set address info := by
  have old : store.records.map (store.rebind address info).info = store.records.map store.info :=
    List.map_congr_left fun record member => store.info_of_listed (store.listed record member) rfl
  have new : (store.rebind address info).info (store.record info) = info := store.info_record rfl
  rw [infos, rebind, List.map_set]
  exact congrArg₂ (·.set address ·) old new

/-- Copies come after all other nodes, and are like their sources. -/
theorem infos_copyAll (store : Store) (addresses : List Nat) :
    (store.copyAll addresses).infos = store.infos ++ addresses.filterMap (store.infos[·]?) := by
  rw [infos, copyAll, List.map_append, List.map_filterMap]
  refine congrArg₂ (· ++ ·) rfl (List.filterMap_congr fun address _ => ?_)
  rw [infos, List.getElem?_map]
  rfl

/-- A step leaves every node that it does not name. -/
theorem read?_step_of_apart (store : Store) (step : StoreStep) {address : Nat} {info : NodeInfo}
    (here : store.read? address = some info) (apart : step.target? ≠ some address) :
    (store.step step).2.read? address = some info := by
  have inside : address < store.infos.length := (List.getElem?_eq_some_iff.mp here).1
  have grown : ∀ others, (store.infos ++ others)[address]? = some info := fun others =>
    (List.getElem?_append_left inside).trans here
  have elsewhere : ∀ other value, some other ≠ some address →
      (store.infos.set other value)[address]? = some info := fun other value apart =>
    (List.getElem?_set_ne fun same => apart (congrArg some same)).trans here
  cases step with
  | ofPods node pods =>
      cases account : NodeInfo.ofPods node pods with
      | error fault => rwa [step_ofPods_of_error account]
      | ok made => rw [step_ofPods_of_ok account, read?, infos_insert, grown]
  | copy source =>
      rw [Store.step]
      split
      · rw [read?, infos_copyAll, grown]
      · exact here
  | copyAll sources =>
      rw [Store.step]
      split
      · rw [read?, infos_copyAll, grown]
      · exact here
  | addPod other pod =>
      cases named : store.read? other with
      | none => rwa [step_addPod_of_none named]
      | some changed =>
          rcases added : changed.addPod pod with ⟨fault | done, later⟩
          · rw [step_addPod_of_error named added, read?, infos_rebind, elsewhere other later apart]
          · rw [step_addPod_of_ok named added, read?, infos_rebind, elsewhere other later apart]
  | sortPods other =>
      cases named : store.read? other with
      | none => rwa [step_sortPods_of_none named]
      | some changed =>
          cases order : changed.sortPods with
          | error fault => rwa [step_sortPods_of_error named order]
          | ok later =>
              rw [step_sortPods_of_ok named order, read?, infos_rebind, elsewhere other later apart]

end Store

end SpotCapacity
