import SpotCapacity.Proofs.Accounting
import SpotCapacity.Proofs.Quantity

/-!
# How exact accounts are

Every amount of CPU is rounded up to a millicore, the requests of containers one by one and what the node
offers as a whole. So an account never counts less than is requested, and more by less than a millicore for
each container that requests something (`overcount_bounds`). Its free CPU may be too low by that much, and is
too high by less than one millicore (`NodeInfo.ofPods_close`).
-/

namespace SpotCapacity

namespace Quantity

/-- An amount that may be left out, and that decimal arithmetic holds exactly where it is given. -/
inductive Measured : Option Quantity → Prop where
  | absent : Measured none
  | empty : Measured (some (.text ""))
  | given {quantity : Quantity} {v : ℚ} (exact : quantity.exactValue? = some v) (short : HasDigits 28 v)
      (moderate : Moderate v) : Measured (some quantity)

/-- Whether an amount is given at all. -/
def isGiven : Option Quantity → Bool
  | none => false
  | some quantity => quantity ≠ .text ""

/-- The exact amount of cores; one that is left out is zero. -/
def cores (amount : Option Quantity) : ℚ := (amount.bind exactValue?).getD 0

variable {amount : Option Quantity}

private theorem cores_of_not_given (missing : isGiven amount = false) : cores amount = 0 := by
  cases amount with
  | none => rfl
  | some quantity =>
      have empty : quantity = .text "" := by simpa [isGiven] using missing
      have nothing : exactValue? (.text "") = none := by decide +kernel
      rw [cores, empty, Option.bind_some, nothing, Option.getD_none]

/-- The millicores of a measured amount are its cores, rounded up. -/
theorem Measured.millicores (measured : Measured amount) :
    Quantity.millicores amount = .ok ⌈1000 * cores amount⌉ := by
  have nothing : isGiven amount = false → ⌈1000 * cores amount⌉ = 0 := fun missing => by
    rw [cores_of_not_given missing, mul_zero, Int.ceil_zero]
  cases measured with
  | absent => rw [nothing rfl, Quantity.millicores]
  | empty => rw [nothing (by decide), Quantity.millicores]
  | given exact short moderate =>
      rw [millicores_of_exact exact moderate, significant_of_hasDigits short, cores, Option.bind_some,
        exact, Option.getD_some]

end Quantity

/-- What a resource list, which may itself be left out, says about CPU. -/
def cpuGiven (resources : Option ResourceList) : Option Quantity :=
  resources.bind fun amounts => (amounts.lookup "cpu").join

/-- The CPU request of a container, if it has one. -/
def Container.cpuQuantity (container : Container) : Option Quantity :=
  cpuGiven (container.resources.bind (·.requests))

/-- The CPU that a node offers, if it says so. -/
def Node.cpuQuantity (node : Node) : Option Quantity :=
  cpuGiven (node.status.bind (·.allocatable))

def Pod.containers (pod : Pod) : List Container := (pod.spec.bind (·.containers)).getD []

private theorem cpuOf_of_measured {amounts : ResourceList}
    (measured : Quantity.Measured (cpuGiven (some amounts))) :
    cpuOf amounts = .ok ⌈1000 * Quantity.cores (cpuGiven (some amounts))⌉ := by
  have counted : Quantity.millicores (amounts.lookup "cpu").join =
      .ok ⌈1000 * Quantity.cores (cpuGiven (some amounts))⌉ := measured.millicores
  rw [cpuOf, counted]

private theorem ceil_cores_none : ⌈1000 * Quantity.cores (cpuGiven none)⌉ = 0 := by
  rw [Quantity.cores_of_not_given rfl, mul_zero, Int.ceil_zero]

private theorem Container.cpuRequest_of_measured {container : Container}
    (measured : Quantity.Measured container.cpuQuantity) :
    container.cpuRequest = .ok ⌈1000 * Quantity.cores container.cpuQuantity⌉ := by
  rw [cpuQuantity] at measured ⊢
  rw [cpuRequest]
  generalize container.resources.bind (·.requests) = resources at measured ⊢
  cases resources with
  | none => rw [ceil_cores_none]
  | some requests => exact cpuOf_of_measured measured

private theorem Node.allocatableCpu_of_measured {node : Node} (measured : Quantity.Measured node.cpuQuantity) :
    node.allocatableCpu = .ok ⌈1000 * Quantity.cores node.cpuQuantity⌉ := by
  rw [cpuQuantity] at measured ⊢
  rw [allocatableCpu]
  generalize node.status.bind (·.allocatable) = resources at measured ⊢
  cases resources with
  | none => rw [ceil_cores_none]
  | some allocatable => exact cpuOf_of_measured measured

/-! ### One sum over all containers -/

private theorem total_append {α : Type} (amount : α → Except Fault Int) (left right : List α) :
    total amount (left ++ right) = (do
      let first ← total amount left
      let second ← total amount right
      return first + second) := by
  induction left with
  | nil =>
      rw [List.nil_append, total, Outcome.ok_bind]
      cases total amount right with
      | error fault => rfl
      | ok second => exact congrArg Except.ok (zero_add second).symm
  | cons item rest ih =>
      rw [List.cons_append, total, total, ih]
      cases amount item with
      | error fault => rfl
      | ok first =>
          cases total amount rest with
          | error fault => rfl
          | ok others =>
              cases total amount right with
              | error fault => rfl
              | ok second => exact congrArg Except.ok (add_assoc first others second).symm

/-- The CPU that pods request is one sum over all their containers. -/
theorem requestedCpu_eq_total (pods : List Pod) :
    requestedCpu pods = total Container.cpuRequest (pods.flatMap Pod.containers) := by
  induction pods with
  | nil => rfl
  | cons pod rest ih => rw [List.flatMap_cons, total_append, ← ih]; rfl

private theorem total_of_forall {α : Type} {amount : α → Except Fault Int} {value : α → Int} {items : List α}
    (counted : ∀ item ∈ items, amount item = .ok (value item)) :
    total amount items = .ok (items.map value).sum := by
  induction items with
  | nil => rfl
  | cons item rest ih =>
      obtain ⟨here, later⟩ := List.forall_mem_cons.mp counted
      rw [total, here, Outcome.ok_bind, ih later, Outcome.ok_bind]
      rfl

/-! ### What rounding adds -/

/-- The exact amount that containers request together, in cores. -/
def requestedCores (containers : List Container) : ℚ :=
  (containers.map fun container => Quantity.cores container.cpuQuantity).sum

/-- The millicores that are counted for containers, each rounded up. -/
def countedMillicores (containers : List Container) : ℤ :=
  (containers.map fun container => ⌈1000 * Quantity.cores container.cpuQuantity⌉).sum

/-- The number of containers that request CPU. -/
def requestCount (containers : List Container) : ℕ :=
  containers.countP fun container => Quantity.isGiven container.cpuQuantity

/-- **Requests are never undercounted**, and overcounted by less than a millicore for each. -/
theorem overcount_bounds (containers : List Container) :
    let overcount : ℚ := countedMillicores containers - 1000 * requestedCores containers
    0 ≤ overcount ∧ overcount ≤ requestCount containers ∧
      (0 < requestCount containers → overcount < requestCount containers) := by
  induction containers with
  | nil => simp [countedMillicores, requestedCores, requestCount]
  | cons container rest ih =>
      obtain ⟨low, high, strict⟩ := ih
      have counted : (countedMillicores (container :: rest) : ℚ) =
          ⌈1000 * Quantity.cores container.cpuQuantity⌉ + countedMillicores rest := by
        rw [countedMillicores, List.map_cons, List.sum_cons, Int.cast_add, countedMillicores]
      have requested : requestedCores (container :: rest) =
          Quantity.cores container.cpuQuantity + requestedCores rest := by
        rw [requestedCores, List.map_cons, List.sum_cons, requestedCores]
      have up := Int.le_ceil (1000 * Quantity.cores container.cpuQuantity)
      have near := Int.ceil_lt_add_one (1000 * Quantity.cores container.cpuQuantity)
      dsimp only
      rw [counted, requested]
      cases given : Quantity.isGiven container.cpuQuantity with
      | true =>
          have count : requestCount (container :: rest) = requestCount rest + 1 :=
            List.countP_cons_of_pos given
          rw [count, Nat.cast_add_one]
          exact ⟨by linarith, by linarith, fun _ => by linarith⟩
      | false =>
          have count : requestCount (container :: rest) = requestCount rest :=
            List.countP_cons_of_neg (by rw [given]; exact Bool.false_ne_true)
          have nothing := Quantity.cores_of_not_given given
          rw [count, nothing, mul_zero, Int.ceil_zero, Int.cast_zero, zero_add, zero_add]
          exact ⟨low, high, strict⟩

namespace NodeInfo

/-- **An account is close to the exact amounts.** Where all amounts of CPU can be held exactly, pods are counted
on a node, the requested CPU is what their containers request or more by less than a millicore for each, and the
free CPU is too low by as much at most, and too high by less than a millicore. -/
theorem ofPods_close {node : Node} {pods : List Pod} (offers : Quantity.Measured node.cpuQuantity)
    (requests : ∀ pod ∈ pods, ∀ container ∈ pod.containers,
      Quantity.Measured container.cpuQuantity) :
    ∃ info, ofPods node pods = .ok info ∧
      let containers := pods.flatMap Pod.containers
      let requested := requestedCores containers
      let offered := Quantity.cores node.cpuQuantity
      let count := requestCount containers
      0 ≤ info.requestedCpu - 1000 * requested ∧ info.requestedCpu - 1000 * requested ≤ count ∧
      (0 < count → info.requestedCpu - 1000 * requested < count) ∧
      -count ≤ info.freeCpu - 1000 * (offered - requested) ∧
      info.freeCpu - 1000 * (offered - requested) < 1 := by
  have counted : SpotCapacity.requestedCpu pods =
      .ok (countedMillicores (pods.flatMap Pod.containers)) := by
    rw [requestedCpu_eq_total]
    apply total_of_forall
    intro container member
    obtain ⟨pod, inside, among⟩ := List.mem_flatMap.mp member
    exact Container.cpuRequest_of_measured (requests pod inside container among)
  generalize pods.flatMap Pod.containers = containers at counted ⊢
  have free : ofPods node pods = .ok ⟨node, pods, countedMillicores containers,
      ⌈1000 * Quantity.cores node.cpuQuantity⌉ - countedMillicores containers⟩ := by
    rw [ofPods, count, counted, Outcome.ok_bind, Node.allocatableCpu_of_measured offers, Outcome.ok_bind]
    rfl
  obtain ⟨low, high, strict⟩ := overcount_bounds containers
  have up := Int.le_ceil (1000 * Quantity.cores node.cpuQuantity)
  have near := Int.ceil_lt_add_one (1000 * Quantity.cores node.cpuQuantity)
  refine ⟨_, free, low, high, strict, ?_, ?_⟩
  · dsimp only
    rw [Int.cast_sub]
    linarith
  · dsimp only
    rw [Int.cast_sub]
    linarith

end NodeInfo

/-! ## A pod of small requests -/

namespace Scraps

def node : Node := ⟨none, some ⟨some [("cpu", some (.text "1.5"))]⟩⟩

def container (amount : Option String) : Container :=
  ⟨some ⟨some [("cpu", amount.map Quantity.text)]⟩⟩

/-- One container requests a tenth of a millicore, one a quarter of a core, and two nothing. -/
def pod : Pod := ⟨none, some ⟨some [container (some "0.1m"), container none, container (some "250m"),
  container (some "")], none⟩⟩

private theorem measured_text {written : String} (coefficient exponent : ℤ)
    (exact : Quantity.exactValue? (.text written) = some ((coefficient : ℚ) * 10 ^ exponent))
    (few : |coefficient| < 10 ^ 28) (least : (10 : ℚ) ^ (-4 : ℤ) ≤ coefficient * 10 ^ exponent)
    (most : (coefficient : ℚ) * 10 ^ exponent ≤ 10 ^ (1 : ℤ)) :
    Quantity.Measured (some (.text written)) :=
  .given exact ⟨coefficient, exponent, few, rfl⟩ (.of_between (-4) 1 (by norm_num) (by norm_num) least most)

private theorem offers : Quantity.Measured node.cpuQuantity :=
  measured_text 15 (-1) (by decide +kernel) (by norm_num) (by norm_num) (by norm_num)

private theorem requests : ∀ container ∈ pod.containers, Quantity.Measured container.cpuQuantity := by
  have tenth : Quantity.Measured (some (.text "0.1m")) :=
    measured_text 1 (-4) (by decide +kernel) (by norm_num) (by norm_num) (by norm_num)
  have quarter : Quantity.Measured (some (.text "250m")) :=
    measured_text 25 (-2) (by decide +kernel) (by norm_num) (by norm_num) (by norm_num)
  intro asked member
  fin_cases member
  · exact tenth
  · exact .absent
  · exact quarter
  · exact .empty

end Scraps

/-- A pod of two containers is overcounted by less than two millicores. -/
theorem NodeInfo.ofPods_close_scraps :
    ∃ info, ofPods Scraps.node [Scraps.pod] = .ok info ∧
      0 ≤ (info.requestedCpu : ℚ) - 250.1 ∧ (info.requestedCpu : ℚ) - 250.1 < 2 ∧
      -2 ≤ (info.freeCpu : ℚ) - 1249.9 ∧ (info.freeCpu : ℚ) - 1249.9 < 1 := by
  have requested : requestedCores ([Scraps.pod].flatMap Pod.containers) = 2501 / 10000 := by
    decide +kernel
  have count : requestCount ([Scraps.pod].flatMap Pod.containers) = 2 := by decide +kernel
  have offered : Quantity.cores Scraps.node.cpuQuantity = 3 / 2 := by decide +kernel
  obtain ⟨info, counted, low, -, strict, under, above⟩ :=
    ofPods_close Scraps.offers (List.forall_mem_singleton.mpr Scraps.requests)
  rw [requested] at low strict under above
  rw [count] at strict under
  rw [offered] at under above
  refine ⟨info, counted, ?_, ?_, ?_, ?_⟩
  · linarith
  · have below := strict two_pos
    rw [Nat.cast_ofNat] at below
    linarith
  · rw [Nat.cast_ofNat] at under
    linarith
  · linarith

end SpotCapacity
