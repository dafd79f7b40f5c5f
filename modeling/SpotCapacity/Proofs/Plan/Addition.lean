import SpotCapacity.Proofs.NodeMap.Schedule
import SpotCapacity.Proofs.Plan.Lineage

/-!
# Additions that fail

A pod is put on the list of its node before it is counted, and stays there when that fails, while the
totals are those before it. So the totals of a node are at all times those of its pods up to the first
one that cannot be counted (`NodeInfo.Charged`, which every step keeps). From then on no addition to
the node and no ordering of its pods succeeds, also where the pod that is added could be counted
(`History.after_addition`).
-/

namespace SpotCapacity

namespace NodeInfo

/-- The pods before the first one that cannot be counted. -/
def countablePods (info : NodeInfo) : List Pod := info.pods.takeWhile (·.cpuRequest.isOk)

/-- The totals of a node are those of its pods before the first one that cannot be counted. -/
def Charged (info : NodeInfo) : Prop := Counted { info with pods := info.countablePods }

private theorem isOk_cpuRequest_iff {pod : Pod} : pod.cpuRequest.isOk = true ↔ pod.Countable := by
  rw [Pod.countable_iff, Outcome.isOk_iff]

private theorem countablePods_eq_self_iff {info : NodeInfo} :
    info.countablePods = info.pods ↔ ∀ pod ∈ info.pods, pod.Countable := by
  simp only [countablePods, List.takeWhile_eq_self_iff, isOk_cpuRequest_iff]

/-- Totals of pods that can all be counted are right. -/
theorem Charged.counted {info : NodeInfo} (charged : info.Charged)
    (countable : ∀ pod ∈ info.pods, pod.Countable) : info.Counted := by
  rw [Charged, countablePods_eq_self_iff.mpr countable] at charged
  exact charged

/-- Right totals are charged. -/
theorem Counted.charged {info : NodeInfo} (counted : info.Counted) : info.Charged := by
  rw [Charged, countablePods_eq_self_iff.mpr counted.countable]
  exact counted

/-- A pod at the end of a list that cannot be counted adds nothing to its beginning. -/
theorem countablePods_append_of_error {info : NodeInfo} {pod : Pod} {fault : Fault}
    (failed : SpotCapacity.requestedCpu (info.pods ++ [pod]) = .error fault) :
    ({ info with pods := info.pods ++ [pod] } : NodeInfo).countablePods = info.countablePods := by
  obtain ⟨before, broken, after, split, countable, fails⟩ := requestedCpu_eq_error_iff.mp failed
  have stop : broken.cpuRequest.isOk = false := by rw [fails]; rfl
  have pass : ∀ other ∈ before, other.cpuRequest.isOk = true := fun other member =>
    isOk_cpuRequest_iff.mpr (countable other member)
  have cut : ∀ rest, (before ++ broken :: rest).takeWhile (·.cpuRequest.isOk) = before := by
    intro rest
    rw [List.takeWhile_append_of_pos pass, List.takeWhile_cons_of_neg (by rw [stop]; exact nofun),
      List.append_nil]
  simp only [countablePods, split, cut]
  -- The broken pod is the new one, or one that was on the list.
  cases after using List.reverseRecOn with
  | nil =>
      have same : info.pods = before := (List.append_inj' split rfl).1
      rw [same]
      exact (List.takeWhile_eq_self_iff.mpr pass).symm
  | append_singleton after last =>
      have same : info.pods = before ++ broken :: after := by
        rw [← List.cons_append, ← List.append_assoc] at split
        exact (List.append_inj' split rfl).1
      rw [same, cut]

private theorem addPod_of_error {info : NodeInfo} {pod : Pod} {fault : Fault}
    (failed : SpotCapacity.requestedCpu (info.pods ++ [pod]) = .error fault) :
    info.addPod pod = (.error fault, { info with pods := info.pods ++ [pod] }) := by
  simp only [addPod, count, failed, Outcome.error_bind]

/-- A pod is added with right totals when it can be counted, and so can all the pods before it. -/
theorem Charged.addPod_of_countable {info : NodeInfo} (charged : info.Charged) {pod : Pod}
    (countable : ∀ other ∈ info.pods ++ [pod], other.Countable) :
    ∃ changed : NodeInfo, info.addPod pod = (.ok (), changed) ∧
      ofPods info.node (info.pods ++ [pod]) = .ok changed := by
  obtain ⟨allocatable, offered, -⟩ := charged.free
  have right : Counted ⟨info.node, info.pods ++ [pod], ((info.pods ++ [pod]).map Pod.cpu).sum,
      allocatable - ((info.pods ++ [pod]).map Pod.cpu).sum⟩ :=
    ⟨countable, rfl, allocatable, offered, rfl⟩
  refine ⟨⟨info.node, info.pods ++ [pod], _, _⟩, ?_, ofPods_eq_ok_iff.mpr ⟨rfl, rfl, right⟩⟩
  simp only [addPod, count_eq_ok_iff.mpr right]

/-- An addition keeps the totals charged, whether it fails or not. -/
theorem Charged.addPod {info : NodeInfo} (charged : info.Charged) (pod : Pod) :
    (info.addPod pod).2.Charged := by
  cases sum : SpotCapacity.requestedCpu (info.pods ++ [pod]) with
  | error fault =>
      rw [addPod_of_error sum, Charged, countablePods_append_of_error sum]
      exact charged
  | ok requested =>
      obtain ⟨changed, added, right⟩ :=
        charged.addPod_of_countable (requestedCpu_eq_ok_iff.mp sum).1
      rw [added]
      exact (ofPods_eq_ok_iff.mp right).2.2.charged

private theorem Charged.sortPods {info sorted : NodeInfo} (charged : info.Charged)
    (order : info.sortPods = .ok sorted) : sorted.Charged := by
  obtain ⟨pods, ordered, -⟩ := Outcome.bind_eq_ok_iff.mp order
  obtain ⟨also, same, right, -⟩ :=
    (charged.counted (sortByCpu_eq_ok_iff.mp ordered).1).sortPods
  cases Except.ok.inj (same.symm.trans order)
  exact right.charged

private theorem sortPods_of_error {info : NodeInfo} {fault : Fault}
    (failed : SpotCapacity.requestedCpu info.pods = .error fault) : info.sortPods = .error fault := by
  have order : sortByCpu info.pods = .error fault :=
    sortByCpu_eq_error_iff.mpr (requestedCpu_eq_error_iff.mp failed)
  rw [sortPods, order, Outcome.error_bind]

end NodeInfo

namespace Store

/-- A copy adds no node but those that it is made of. -/
theorem mem_infos_copyAll {store : Store} {addresses : List Nat} {info : NodeInfo}
    (member : info ∈ (store.copyAll addresses).infos) : info ∈ store.infos := by
  rw [infos_copyAll, List.mem_append, List.mem_filterMap] at member
  obtain old | ⟨address, -, found⟩ := member
  · exact old
  · exact List.mem_of_getElem? found

/-- All that a step leaves: nodes that were there, and the one it makes of pods or of such a node. -/
theorem mem_infos_step {store : Store} {step : StoreStep} {info : NodeInfo}
    (member : info ∈ (store.step step).2.infos) :
    info ∈ store.infos ∨ (∃ node pods, NodeInfo.ofPods node pods = .ok info) ∨
      ∃ before ∈ store.infos,
        (∃ pod, info = (before.addPod pod).2) ∨ before.sortPods = .ok info := by
  cases step with
  | ofPods node pods =>
      cases account : NodeInfo.ofPods node pods with
      | error fault =>
          rw [step_ofPods_of_error account] at member
          exact .inl member
      | ok made =>
          rw [step_ofPods_of_ok account, infos_insert, List.mem_append, List.mem_singleton] at member
          exact member.imp_right fun new => .inl ⟨node, pods, by rw [account, new]⟩
  | copy source =>
      rw [Store.step] at member
      split at member
      · exact .inl (mem_infos_copyAll member)
      · exact .inl member
  | copyAll sources =>
      rw [Store.step] at member
      split at member
      · exact .inl (mem_infos_copyAll member)
      · exact .inl member
  | addPod address pod =>
      cases here : store.read? address with
      | none =>
          rw [step_addPod_of_none here] at member
          exact .inl member
      | some before =>
          have inside : before ∈ store.infos := List.mem_of_getElem? here
          rcases added : before.addPod pod with ⟨fault | done, changed⟩
          · rw [step_addPod_of_error here added, infos_rebind] at member
            exact (List.mem_or_eq_of_mem_set member).imp_right fun new =>
              .inr ⟨before, inside, .inl ⟨pod, by rw [new, added]⟩⟩
          · rw [step_addPod_of_ok here added, infos_rebind] at member
            exact (List.mem_or_eq_of_mem_set member).imp_right fun new =>
              .inr ⟨before, inside, .inl ⟨pod, by rw [new, added]⟩⟩
  | sortPods address =>
      cases here : store.read? address with
      | none =>
          rw [step_sortPods_of_none here] at member
          exact .inl member
      | some before =>
          have inside : before ∈ store.infos := List.mem_of_getElem? here
          cases order : before.sortPods with
          | error fault =>
              rw [step_sortPods_of_error here order] at member
              exact .inl member
          | ok sorted =>
              rw [step_sortPods_of_ok here order, infos_rebind] at member
              exact (List.mem_or_eq_of_mem_set member).imp_right fun new =>
                .inr ⟨before, inside, .inr (by rw [order, new])⟩

/-- A step keeps the totals of all nodes charged. -/
theorem step_charged {store : Store} (charged : ∀ info ∈ store.infos, info.Charged)
    (step : StoreStep) : ∀ info ∈ (store.step step).2.infos, info.Charged := by
  intro info member
  obtain old | ⟨node, pods, account⟩ | ⟨before, inside, ⟨pod, rfl⟩ | order⟩ :=
    mem_infos_step member
  · exact charged info old
  · exact (NodeInfo.ofPods_eq_ok_iff.mp account).2.2.charged
  · exact (charged before inside).addPod pod
  · exact (charged before inside).sortPods order

end Store

/-- The pod that a step adds to the node at an address. -/
def StoreStep.addedAt? (address : Nat) : StoreStep → Option Pod
  | .addPod other pod => if other = address then some pod else none
  | _ => none

private theorem StoreStep.addedAt?_of_apart {address : Nat} {step : StoreStep}
    (apart : step.target? ≠ some address) : step.addedAt? address = none := by
  cases step with
  | addPod other pod => exact if_neg fun same => apart (congrArg some same)
  | _ => rfl

namespace Store

variable {store : Store} {address : Nat} {info : NodeInfo} {fault : Fault}

private theorem step_addPod_of_fault (here : store.read? address = some info) {pod : Pod}
    (failed : requestedCpu (info.pods ++ [pod]) = .error fault) :
    (store.step (.addPod address pod)).1 = .failed fault ∧
      (store.step (.addPod address pod)).2.read? address =
        some { info with pods := info.pods ++ [pod] } := by
  rw [step_addPod_of_error here (NodeInfo.addPod_of_error failed)]
  refine ⟨rfl, ?_⟩
  rw [read?, infos_rebind]
  exact List.getElem?_set_self (List.getElem?_eq_some_iff.mp here).1

/-- A step leaves the totals of a node that cannot be counted, and puts on its list what it adds. -/
theorem read?_step_of_fault (here : store.read? address = some info)
    (failed : requestedCpu info.pods = .error fault) (step : StoreStep) :
    (store.step step).2.read? address =
      some { info with pods := info.pods ++ (step.addedAt? address).toList } := by
  by_cases apart : step.target? = some address
  · cases step with
    | addPod other pod =>
        cases apart
        have fails := requestedCpu_append_of_error failed [pod]
        rw [(step_addPod_of_fault here fails).2, StoreStep.addedAt?, if_pos rfl]
        rfl
    | sortPods other =>
        cases apart
        have none : (StoreStep.sortPods address).addedAt? address = none := rfl
        rw [step_sortPods_of_error here (NodeInfo.sortPods_of_error failed), here, none,
          Option.toList_none, List.append_nil]
    | ofPods | copy | copyAll => cases apart
  · rw [StoreStep.addedAt?_of_apart apart, Option.toList_none, List.append_nil]
    exact store.read?_step_of_apart step here apart

end Store

namespace History

/-- Nothing has been accounted. -/
def empty : History := ⟨.empty, []⟩

private theorem empty_carries : empty.Carries [] := ⟨[], Board.empty_shows⟩

/-- The totals of all nodes stay charged, however many steps are taken. -/
theorem after_charged {history : History} (charged : ∀ info ∈ history.store.infos, info.Charged)
    (steps : List StoreStep) : ∀ info ∈ (history.after steps).store.infos, info.Charged := by
  induction steps generalizing history with
  | nil => exact charged
  | cons step rest ih => exact ih (Store.step_charged charged step)

/-- However a plan goes on, a node that cannot be counted keeps its totals and collects pods. -/
theorem read?_after_of_fault {history : History} {address : Nat} {info : NodeInfo} {fault : Fault}
    (here : history.store.read? address = some info)
    (failed : requestedCpu info.pods = .error fault) (steps : List StoreStep) :
    (history.after steps).store.read? address =
      some { info with pods := info.pods ++ steps.filterMap (·.addedAt? address) } := by
  induction steps generalizing history info with
  | nil =>
      rw [List.filterMap_nil, List.append_nil]
      exact here
  | cons step rest ih =>
      have next : (history.step step).store.read? address = some { info with
          pods := info.pods ++ (step.addedAt? address).toList } :=
        Store.read?_step_of_fault here failed step
      have later := ih next (requestedCpu_append_of_error failed _)
      rw [List.append_assoc] at later
      have split : (step :: rest).filterMap (·.addedAt? address) =
          (step.addedAt? address).toList ++ rest.filterMap (·.addedAt? address) := by
        cases added : step.addedAt? address with
        | none => rw [List.filterMap_cons_none added]; rfl
        | some pod => rw [List.filterMap_cons_some added]; rfl
      rw [split]
      exact later

/-- However a plan goes on after an addition that failed, the node keeps its totals and collects pods, and each
addition to it and each ordering of its pods fails in the same way. -/
theorem broken_after {history : History} {address : Nat} {info : NodeInfo} {pod : Pod} {fault : Fault}
    (here : history.store.read? address = some info)
    (failed : requestedCpu (info.pods ++ [pod]) = .error fault) (later : List StoreStep) :
    let reached := ((history.step (.addPod address pod)).after later).store
    reached.read? address = some { info with
        pods := info.pods ++ pod :: later.filterMap (·.addedAt? address) } ∧
      (∀ another, (reached.step (.addPod address another)).1 = .failed fault) ∧
      (reached.step (.sortPods address)).1 = .failed fault := by
  intro reached
  have next : (history.step (.addPod address pod)).store.read? address =
      some { info with pods := info.pods ++ [pod] } := (Store.step_addPod_of_fault here failed).2
  have still := read?_after_of_fault next failed later
  have broke := requestedCpu_append_of_error failed (later.filterMap (·.addedAt? address))
  refine ⟨?_, fun another => ?_, ?_⟩
  · rw [still, List.append_assoc, List.singleton_append]
  · exact (Store.step_addPod_of_fault still (requestedCpu_append_of_error broke [another])).1
  · rw [Store.step_sortPods_of_error still (NodeInfo.sortPods_of_error broke)]

/-- **An addition is done or breaks its node.** The totals of every node that steps from nothing reach
are those of its pods up to the first that cannot be counted. If there is none with the pod that is
added, the addition is done and the node is as counting all its pods makes it. Otherwise it fails, the
pod is on the list all the same and the totals are the old ones; however the plan goes on, the node
keeps these totals and collects the pods that are added, and each addition to it and each ordering of
its pods fails in the same way. Every node in the lists of a plan that is carried out is such a node, and
additions to it have the outcomes that they have there. -/
theorem after_addition (steps : List StoreStep) {address : Nat} {info : NodeInfo}
    (here : (empty.after steps).store.read? address = some info) (pod : Pod) :
    let added := (empty.after steps).store.step (.addPod address pod)
    NodeInfo.ofPods info.node info.countablePods = .ok { info with pods := info.countablePods } ∧
      ((∀ other ∈ info.pods ++ [pod], other.Countable) ∧ added.1 = .done ∧
          (∃ changed, added.2.read? address = some changed ∧
            NodeInfo.ofPods info.node (info.pods ++ [pod]) = .ok changed) ∨
        ∃ before broken after fault, info.pods ++ [pod] = before ++ broken :: after ∧
          (∀ other ∈ before, other.Countable) ∧ broken.cpuRequest = .error fault ∧
          added.1 = .failed fault ∧
          added.2.read? address = some { info with pods := info.pods ++ [pod] } ∧
          ∀ later : List StoreStep,
            let reached := (empty.after (steps ++ .addPod address pod :: later)).store
            reached.read? address = some { info with
              pods := info.pods ++ pod :: later.filterMap (·.addedAt? address) } ∧
            (∀ another, (reached.step (.addPod address another)).1 = .failed fault) ∧
            (reached.step (.sortPods address)).1 = .failed fault) ∧
      ∀ planned : List PlanStep, (∀ step ∈ planned, step.Counted) →
        ∃ taken, ∀ list index other,
          (Plan.run [] planned).2.info? list index = some other →
            ∃ place, (empty.after taken).store.read? place = some other ∧
              ∀ another, ((empty.after taken).store.step (.addPod place another)).1 =
                ((Plan.run [] planned).2.addPod list index another).1 := by
  intro added
  have none : ∀ info ∈ empty.store.infos, info.Charged := fun _ inside =>
    absurd inside List.not_mem_nil
  have charged : info.Charged := after_charged none steps info (List.mem_of_getElem? here)
  refine ⟨NodeInfo.ofPods_eq_ok_iff.mpr ⟨rfl, rfl, charged⟩, ?_, fun planned counts => ?_⟩
  · cases sum : requestedCpu (info.pods ++ [pod]) with
    | ok requested =>
        have countable := (requestedCpu_eq_ok_iff.mp sum).1
        obtain ⟨changed, step, right⟩ := charged.addPod_of_countable countable
        have done : added = _ := Store.step_addPod_of_ok here step
        refine .inl ⟨countable, by rw [done], changed, ?_, right⟩
        rw [done, Store.read?, Store.infos_rebind]
        exact List.getElem?_set_self (List.getElem?_eq_some_iff.mp here).1
    | error fault =>
        obtain ⟨before, broken, after, split, countable, fails⟩ := requestedCpu_eq_error_iff.mp sum
        obtain ⟨failed, stays⟩ := Store.step_addPod_of_fault here sum
        refine .inr ⟨before, broken, after, fault, split, countable, fails, failed, stays, ?_⟩
        intro later
        have joined : empty.after (steps ++ .addPod address pod :: later) =
            ((empty.after steps).step (.addPod address pod)).after later := List.foldl_append
        rw [joined]
        exact broken_after here sum later
  · obtain ⟨taken, carries⟩ := empty_carries.run counts
    exact ⟨taken, fun list index other shown => carries.exists_address shown⟩

end History

namespace SmallFleet

def accounting : List StoreStep := [.ofPods stable [small]]

private theorem read?_accounting :
    (History.empty.after accounting).store.read? 0 = some ⟨stable, [small], 100, 1900⟩ := by
  have readable : small.cpuRequest = .ok 100 := by decide +kernel
  have offered : stable.allocatableCpu = .ok 2000 := by decide +kernel
  have account : NodeInfo.ofPods stable [small] = .ok ⟨stable, [small], 100, 1900⟩ := by
    simp only [NodeInfo.ofPods, NodeInfo.count, requestedCpu, total, readable, offered,
      Outcome.ok_bind]
    rfl
  have made : (History.empty.after accounting).store = Store.empty.insert _ :=
    congrArg Prod.snd (Store.step_ofPods_of_ok account)
  rw [made, Store.read?, Store.infos_insert]
  rfl

private theorem requestedCpu_unreadable :
    requestedCpu [small, unreadable] = .error (.quantity (.numberFormat "1x")) := by
  decide +kernel

end SmallFleet

/-- A pod that cannot be counted stays on the list of its node, however the plan goes on. -/
theorem History.after_addition_smallFleet :
    (empty.after SmallFleet.accounting).store.read? 0 =
        some ⟨SmallFleet.stable, [SmallFleet.small], 100, 1900⟩ ∧
      ∀ later : List StoreStep,
        let reached := (empty.after
          (SmallFleet.accounting ++ .addPod 0 SmallFleet.unreadable :: later)).store
        reached.read? 0 = some ⟨SmallFleet.stable, SmallFleet.small :: SmallFleet.unreadable ::
          later.filterMap (·.addedAt? 0), 100, 1900⟩ ∧
        ∀ another, (reached.step (.addPod 0 another)).1 =
          .failed (.quantity (.numberFormat "1x")) := by
  refine ⟨SmallFleet.read?_accounting, fun later => ?_⟩
  obtain ⟨-, ⟨countable, -⟩ | ⟨_, _, _, fault, split, earlier, fails, -, -, goesOn⟩, -⟩ :=
    after_addition SmallFleet.accounting SmallFleet.read?_accounting SmallFleet.unreadable
  · have counts := requestedCpu_eq_ok_iff.mpr ⟨countable, rfl⟩
    exact absurd (counts.symm.trans SmallFleet.requestedCpu_unreadable) nofun
  · have sum := requestedCpu_eq_error_iff.mpr ⟨_, _, _, split, earlier, fails⟩
    cases Except.error.inj (sum.symm.trans SmallFleet.requestedCpu_unreadable)
    obtain ⟨reads, additions, -⟩ := goesOn later
    exact ⟨reads, additions⟩

/-- The addition of a pod that cannot be counted is no addition that leaves the node as it was, and
the addition of a good pod fails after it. -/
theorem History.addition_leaves_unreadable :
    let store := (empty.after SmallFleet.accounting).store
    let later := (store.step (.addPod 0 SmallFleet.unreadable)).2
    (store.step (.addPod 0 SmallFleet.unreadable)).1 =
        .failed (.quantity (.numberFormat "1x")) ∧
      later.read? 0 ≠ store.read? 0 ∧
      (store.step (.addPod 0 SmallFleet.large)).1 = .done ∧
      (later.step (.addPod 0 SmallFleet.large)).1 = .failed (.quantity (.numberFormat "1x")) := by
  intro store later
  have before : (store.read? 0).map (·.pods.length) = some 1 := by decide +kernel
  have after : (later.read? 0).map (·.pods.length) = some 2 := by decide +kernel
  refine ⟨by decide +kernel, fun same => ?_, by decide +kernel, by decide +kernel⟩
  rw [same, before] at after
  cases after

end SpotCapacity
