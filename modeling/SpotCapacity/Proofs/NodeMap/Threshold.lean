import SpotCapacity.Proofs.NodeMap.Failure

/-!
# Raising the priority threshold

Two builds that differ in their priority threshold alone. Pods are left out before anything is counted
or put in order, so where the build with the lower threshold succeeds, the other one fails only if it has
an integer to write that is too long: the threshold or a priority in the report of a pod, or what the spot
nodes request together. Else its spot nodes are those of the other map without the pods below the higher
threshold (`NodeMap.build_raised`). What is listed below the threshold makes no difference to a map.
-/

namespace SpotCapacity

namespace NodeInfo

end NodeInfo

namespace NodeMapConfig

variable {config : NodeMapConfig} {answer : Node → Except Fault (List Pod)} {threshold : Int}
  {nodes : List Node} {node : Node} {nodeClass : NodeClass} {info : NodeInfo} {pods : List Pod}
  {infos : List (NodeClass × NodeInfo)}

/-- The same rules and workers with another threshold. -/
def withThreshold (config : NodeMapConfig) (threshold : Int) : NodeMapConfig :=
  { config with threshold := threshold }

/-- In the reports of the pods that do not count on some nodes, the priorities and the threshold are
short enough to be written. -/
def Writable (config : NodeMapConfig) (answer : Node → Except Fault (List Pod)) (nodes : List Node) :
    Prop :=
  ∀ node ∈ nodes, ∀ pods, answer node = .ok pods →
    ∀ pod ∈ config.ignored (config.classify node) pods,
      Text.isWritable pod.priority = true ∧ Text.isWritable config.threshold = true

private theorem mem_of_mem_ignored {pod : Pod} (member : pod ∈ config.ignored nodeClass pods) : pod ∈ pods := by
  rw [ignored] at member
  split at member
  · exact List.mem_of_mem_filter member
  · cases member

section

variable {other : NodeMapConfig} {answered : Node → Except Fault (List Pod)}
  {change : NodeClass × NodeInfo → NodeClass × NodeInfo}

end

end NodeMapConfig

namespace NodeMap

variable {config : NodeMapConfig} {answer : Node → Except Fault (List Pod)} {threshold : Int}
  {nodes : List Node} {map : NodeMap}

end NodeMap

namespace SmallFleet

/-- A pod that does not count on spot nodes, and cannot be counted. -/
def broken : Pod := Inventory.pod "batch" "broken" (-1) ["1x"]

/-- The pods of the small fleet have metadata and priorities of one digit. -/
theorem modest {node : Node} {pods : List Pod} (came : answer node = .ok pods) :
    ∀ pod ∈ pods, pod.metadata ≠ none ∧ Text.isWritable pod.priority = true := by
  obtain ⟨name, -, same⟩ := Outcome.bind_eq_ok_iff.mp came
  cases same
  intro pod member
  unfold podsOn at member
  split at member
  · fin_cases member <;> exact ⟨Option.some_ne_none _, by decide +kernel⟩
  · fin_cases member
    exact ⟨Option.some_ne_none _, by decide +kernel⟩
  · cases member

private theorem writable : (NodeMapConfig.standard.withThreshold 1).Writable answer nodes :=
  fun _ _ _ came pod member =>
    ⟨(modest came pod (NodeMapConfig.mem_of_mem_ignored member)).2, by decide +kernel⟩

end SmallFleet

namespace SmallFleet

end SmallFleet

namespace CreditFleet

def charge : Pod := Inventory.pod "batch" "charge" 1 ["9e4296"]
def refund : Pod := Inventory.pod "batch" "refund" 0 ["-9e4296"]
def lender : Node := Inventory.node "lender" "1" ["kubernetes.io/role=spot-worker"]
def left : Node := Inventory.node "left" "1" ["kubernetes.io/role=spot-worker"]
def right : Node := Inventory.node "right" "1" ["kubernetes.io/role=spot-worker"]

def nodes : List Node := [lender, left, right]

def podsOn : Option String → List Pod
  | some "lender" => [refund]
  | _ => [charge]

def answer (node : Node) : Except Fault (List Pod) := do return podsOn (← node.name)

/-- A charge in millicores. -/
def amount : Int := 9 * Nat.pow 10 4299

def map : NodeMap where
  spot := [⟨left, [charge], amount, 1000 - amount⟩, ⟨right, [charge], amount, 1000 - amount⟩,
    ⟨lender, [refund], -amount, 1000 - -amount⟩]
  onDemand := []

private theorem outcome_eq : NodeMap.outcome .standard answer nodes = .ok map := by
  have candidates : NodeMapConfig.standard.candidates nodes =
      [(lender, .spot), (left, .spot), (right, .spot)] := rfl
  have charged : charge.cpuRequest = .ok amount := by decide +kernel
  have refunded : refund.cpuRequest = .ok (-amount) := by decide +kernel
  have offered : ∀ node ∈ nodes, node.allocatableCpu = .ok 1000 := by decide +kernel
  have ofLender : NodeMapConfig.standard.accounted answer lender .spot =
      .ok ⟨lender, [refund], -amount, 1000 - -amount⟩ :=
    NodeMapConfig.accounted_of_one_pod rfl (by decide) refunded (offered lender (by simp [nodes]))
  have ofLeft : NodeMapConfig.standard.accounted answer left .spot =
      .ok ⟨left, [charge], amount, 1000 - amount⟩ :=
    NodeMapConfig.accounted_of_one_pod rfl (by decide) charged (offered left (by simp [nodes]))
  have ofRight : NodeMapConfig.standard.accounted answer right .spot =
      .ok ⟨right, [charge], amount, 1000 - amount⟩ :=
    NodeMapConfig.accounted_of_one_pod rfl (by decide) charged (offered right (by simp [nodes]))
  have positive : -amount ≤ amount ∧ ¬ amount ≤ -amount := by decide +kernel
  have arranged : NodeMap.assemble [(.spot, ⟨lender, [refund], -amount, 1000 - -amount⟩),
      (.spot, ⟨left, [charge], amount, 1000 - amount⟩),
      (.spot, ⟨right, [charge], amount, 1000 - amount⟩)] = map := by
    simp [NodeMap.assemble, map, List.mergeSort, List.MergeSort.Internal.splitInTwo, positive]
  have summed : ∃ text, map.summary = .ok text := Outcome.isOk_iff.mp (by decide +kernel)
  refine NodeMap.outcome_eq_ok_iff.mpr ⟨rfl, _, ?_, arranged, summed⟩
  rw [candidates]
  exact Outcome.mapM_eq_ok_iff.mpr (.cons (NodeMapConfig.entered_of_accounted ofLender)
    (.cons (NodeMapConfig.entered_of_accounted ofLeft)
      (.cons (NodeMapConfig.entered_of_accounted ofRight) .nil)))

private theorem fixed_answer : (PodLister.fixed answer).Answers answer := by
  apply PodLister.fixed_answers_of_named
  intro node fault unnamed
  rw [answer, unnamed]
  rfl

end CreditFleet

end SpotCapacity
