import SpotCapacity.NodeInfo
import SpotCapacity.Proofs.Outcome
import SpotCapacity.Proofs.StableOrder

/-!
# CPU accounts

A sum of CPU requests exists exactly when every part of it can be counted, and then it does not
depend on the order of its parts. Hence an account that is right (`NodeInfo.Counted`) stays right
when its pods are put in another order, and counting its pods from the start gives the same totals
(`NodeInfo.ofPods_eq_ok_iff`). A sum that does not exist fails with the fault of the first part that
cannot be counted (`requestedCpu_eq_error_iff`).
-/

namespace SpotCapacity

/-- The amount of an item, nothing for an item that cannot be counted. -/
def amountOf {α : Type} (amount : α → Except Fault Int) (item : α) : Int :=
  (amount item).toOption.getD 0

/-- The amount of an item that has one. -/
theorem amountOf_eq {α : Type} {amount : α → Except Fault Int} {item : α} {n : Int}
    (counted : amount item = .ok n) : amountOf amount item = n := by
  simp only [amountOf, counted, Except.toOption, Option.getD_some]

/-- A total exists exactly when every item can be counted, and is the sum of the amounts. -/
theorem total_eq_ok_iff {α : Type} {amount : α → Except Fault Int} {items : List α} {n : Int} :
    total amount items = .ok n ↔
      (∀ item ∈ items, amount item = .ok (amountOf amount item)) ∧
        n = (items.map (amountOf amount)).sum := by
  induction items generalizing n with
  | nil => simp [total, eq_comm]
  | cons item rest ih =>
      simp only [total, Outcome.bind_eq_ok_iff, ih, List.forall_mem_cons, List.map_cons,
        List.sum_cons]
      constructor
      · rintro ⟨first, here, others, ⟨later, rfl⟩, same⟩
        rw [amountOf_eq here]
        exact ⟨⟨here, later⟩, (Except.ok.inj same).symm⟩
      · rintro ⟨⟨here, later⟩, rfl⟩
        exact ⟨_, here, _, ⟨later, rfl⟩, rfl⟩

namespace Pod

def cpu (pod : Pod) : Int := amountOf Pod.cpuRequest pod

def Countable (pod : Pod) : Prop := pod.cpuRequest = .ok pod.cpu

/-- A pod whose request is known can be counted. -/
theorem countable_of_cpuRequest {pod : Pod} {n : Int} (counted : pod.cpuRequest = .ok n) :
    pod.Countable := by
  rw [Countable, cpu, amountOf_eq counted, counted]

end Pod

/-- The request of pods is the sum of their CPU, if all of them can be counted. -/
theorem requestedCpu_eq_ok_iff {pods : List Pod} {n : Int} :
    requestedCpu pods = .ok n ↔ (∀ pod ∈ pods, pod.Countable) ∧ n = (pods.map Pod.cpu).sum :=
  total_eq_ok_iff

private theorem weighPods_eq_ok_iff {pods : List Pod} {weighed : List (Int × Pod)} :
    weighPods pods = .ok weighed ↔
      (∀ pod ∈ pods, pod.Countable) ∧ weighed = pods.map fun pod => (pod.cpu, pod) := by
  induction pods generalizing weighed with
  | nil => simp [weighPods, eq_comm]
  | cons pod rest ih =>
      simp only [weighPods, Outcome.bind_eq_ok_iff, ih, List.forall_mem_cons, List.map_cons]
      constructor
      · rintro ⟨first, here, others, ⟨later, rfl⟩, same⟩
        have amount : pod.cpu = first := amountOf_eq here
        rw [amount]
        exact ⟨⟨Pod.countable_of_cpuRequest here, later⟩, (Except.ok.inj same).symm⟩
      · rintro ⟨⟨here, later⟩, rfl⟩
        exact ⟨_, here, _, ⟨later, rfl⟩, rfl⟩

/-- Pods can be put in order exactly when all of them can be counted. -/
theorem sortByCpu_eq_ok_iff {pods sorted : List Pod} :
    sortByCpu pods = .ok sorted ↔
      (∀ pod ∈ pods, pod.Countable) ∧
        sorted = pods.mergeSort fun left right => left.cpu ≥ right.cpu := by
  have forget : ((pods.map fun pod => (pod.cpu, pod)).mergeSort
        fun left right => right.1 ≤ left.1).map (·.2) =
      pods.mergeSort fun left right => left.cpu ≥ right.cpu := by
    rw [List.map_mergeSort (s := fun left right => decide (left.cpu ≥ right.cpu)), List.map_map]
    · congr 1
      exact List.map_id pods
    · intro left inLeft right inRight
      obtain ⟨first, -, rfl⟩ := List.mem_map.mp inLeft
      obtain ⟨second, -, rfl⟩ := List.mem_map.mp inRight
      rfl
  simp only [sortByCpu, Outcome.bind_eq_ok_iff, weighPods_eq_ok_iff]
  constructor
  · rintro ⟨weighed, ⟨countable, rfl⟩, same⟩
    exact ⟨countable, (Except.ok.inj same).symm.trans forget⟩
  · rintro ⟨countable, rfl⟩
    exact ⟨_, ⟨countable, rfl⟩, congrArg Except.ok forget⟩

private theorem weighPods_eq_mapM (pods : List Pod) :
    weighPods pods = pods.mapM fun pod => pod.cpuRequest.map fun cpu => (cpu, pod) := by
  induction pods with
  | nil => rfl
  | cons pod rest ih =>
      rw [weighPods, List.mapM_cons, ih]
      cases pod.cpuRequest <;> rfl

/-- A pod can be counted exactly if its request is a number. -/
theorem Pod.countable_iff {pod : Pod} : pod.Countable ↔ ∃ n, pod.cpuRequest = .ok n :=
  ⟨fun countable => ⟨_, countable⟩, fun ⟨_, counted⟩ => countable_of_cpuRequest counted⟩

private theorem total_eq_mapM {α : Type} (amount : α → Except Fault Int) (items : List α) :
    total amount items = (items.mapM amount).map List.sum := by
  induction items with
  | nil => rfl
  | cons item rest ih =>
      rw [total, List.mapM_cons, ih]
      cases amount item with
      | error fault => rfl
      | ok first => cases rest.mapM amount <;> rfl

/-- A sum of requests fails with the fault of the first pod that cannot be counted. -/
theorem requestedCpu_eq_error_iff {pods : List Pod} {fault : Fault} :
    requestedCpu pods = .error fault ↔ ∃ before pod after, pods = before ++ pod :: after ∧
      (∀ other ∈ before, other.Countable) ∧ pod.cpuRequest = .error fault := by
  rw [requestedCpu, total_eq_mapM, Outcome.map_eq_error_iff, Outcome.mapM_eq_error_iff]
  simp only [Pod.countable_iff]

/-- Pods that follow do not mend a sum that fails. -/
theorem requestedCpu_append_of_error {pods : List Pod} {fault : Fault}
    (failed : requestedCpu pods = .error fault) (others : List Pod) :
    requestedCpu (pods ++ others) = .error fault := by
  obtain ⟨before, pod, after, rfl, countable, broken⟩ := requestedCpu_eq_error_iff.mp failed
  apply requestedCpu_eq_error_iff.mpr
  exact ⟨before, pod, after ++ others, List.append_assoc _ _ _, countable, broken⟩

/-- Pods that cannot be put in order fail with the first one that cannot be counted. -/
theorem sortByCpu_eq_error_iff {pods : List Pod} {fault : Fault} :
    sortByCpu pods = .error fault ↔ ∃ before pod after, pods = before ++ pod :: after ∧
      (∀ other ∈ before, other.Countable) ∧ pod.cpuRequest = .error fault := by
  have weighing : sortByCpu pods = .error fault ↔ weighPods pods = .error fault := by
    rw [sortByCpu, Outcome.bind_eq_error_iff]
    exact or_iff_left fun ⟨_, _, ordered⟩ => nomatch ordered
  have counted : ∀ pod : Pod, (∃ weighed, pod.cpuRequest.map (fun cpu => (cpu, pod)) = .ok weighed) ↔
      pod.Countable := by
    intro pod
    rw [Pod.countable_iff]
    cases pod.cpuRequest with
    | error fault => exact ⟨nofun, nofun⟩
    | ok cpu => exact ⟨fun _ => ⟨cpu, rfl⟩, fun _ => ⟨_, rfl⟩⟩
  rw [weighing, weighPods_eq_mapM, Outcome.mapM_eq_error_iff]
  simp only [counted, Outcome.map_eq_error_iff]

/-- Pods in order of their CPU, biggest first. -/
theorem sortByCpu_stablyOrdered {pods sorted : List Pod} (order : sortByCpu pods = .ok sorted) :
    StablyOrdered Pod.cpu (· ≥ ·) pods sorted := by
  rw [(sortByCpu_eq_ok_iff.mp order).2]
  exact stablyOrdered_mergeSort Pod.cpu (· ≥ ·) pods

namespace NodeInfo

/-- An account that is right: all its pods can be counted, the requested CPU is their sum, and the
free CPU is what the node offers without it. -/
structure Counted (info : NodeInfo) : Prop where
  countable : ∀ pod ∈ info.pods, pod.Countable
  requested : info.requestedCpu = (info.pods.map Pod.cpu).sum
  free : ∃ allocatable, info.node.allocatableCpu = .ok allocatable ∧
    info.freeCpu = allocatable - info.requestedCpu

/-- Counting succeeds exactly with the totals that a right account has. -/
theorem count_eq_ok_iff {node : Node} {pods : List Pod} {requested free : Int} :
    count node pods = .ok (requested, free) ↔ Counted ⟨node, pods, requested, free⟩ := by
  simp only [count, Outcome.bind_eq_ok_iff, requestedCpu_eq_ok_iff]
  constructor
  · rintro ⟨sum, ⟨countable, rfl⟩, allocatable, offered, same⟩
    obtain ⟨rfl, rfl⟩ := Prod.mk.inj (Except.ok.inj same)
    exact ⟨countable, rfl, allocatable, offered, rfl⟩
  · rintro ⟨countable, sum, allocatable, offered, rest⟩
    exact ⟨requested, ⟨countable, sum⟩, allocatable, offered,
      congrArg (fun n => Except.ok (requested, n)) rest.symm⟩

/-- Counting pods on a node gives the one account of them that is right. -/
theorem ofPods_eq_ok_iff {node : Node} {pods : List Pod} {info : NodeInfo} :
    ofPods node pods = .ok info ↔ info.node = node ∧ info.pods = pods ∧ info.Counted := by
  obtain ⟨infoNode, infoPods, requested, free⟩ := info
  simp only [ofPods, Outcome.bind_eq_ok_iff]
  constructor
  · rintro ⟨⟨sum, rest⟩, counted, same⟩
    obtain ⟨rfl, rfl, rfl, rfl⟩ := NodeInfo.mk.inj (Except.ok.inj same)
    exact ⟨rfl, rfl, count_eq_ok_iff.mp counted⟩
  · rintro ⟨rfl, rfl, right⟩
    exact ⟨(requested, free), count_eq_ok_iff.mpr right, rfl⟩

/-- The order of the pods does not matter to an account. -/
theorem Counted.perm {info : NodeInfo} (counted : info.Counted) {pods : List Pod}
    (same : pods.Perm info.pods) : ({ info with pods := pods } : NodeInfo).Counted where
  countable := fun pod member => counted.countable pod (same.mem_iff.mp member)
  requested := counted.requested.trans (same.map Pod.cpu).sum_eq.symm
  free := counted.free

/-- An account that is right can be put in order, and is still right. -/
theorem Counted.sortPods {info : NodeInfo} (counted : info.Counted) :
    ∃ sorted : NodeInfo, info.sortPods = .ok sorted ∧ sorted.Counted ∧
      sorted.node = info.node ∧ sorted.requestedCpu = info.requestedCpu ∧
      sorted.freeCpu = info.freeCpu ∧ StablyOrdered Pod.cpu (· ≥ ·) info.pods sorted.pods := by
  obtain ⟨pods, order⟩ : ∃ pods, sortByCpu info.pods = .ok pods :=
    ⟨_, sortByCpu_eq_ok_iff.mpr ⟨counted.countable, rfl⟩⟩
  have ordered := sortByCpu_stablyOrdered order
  exact ⟨{ info with pods := pods }, by rw [NodeInfo.sortPods, order]; rfl,
    counted.perm ordered.perm, rfl, rfl, rfl, ordered⟩

end NodeInfo

end SpotCapacity
