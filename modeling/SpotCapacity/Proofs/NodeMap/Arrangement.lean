import SpotCapacity.Cluster.Inventory
import SpotCapacity.Proofs.NodeMap.Outcome

/-!
# The arrangement of node maps

A map that is built holds one right account for each position of a spot or on-demand node, and
nothing else: spot nodes by most requested CPU first, on-demand nodes by least requested CPU first,
ties in the order of the nodes (`NodeMap.build_arranges`). The pods of an account are those that count
among the listed ones, by most requested CPU first.
-/

namespace SpotCapacity

namespace NodeMapConfig

variable {config : NodeMapConfig} {listing others : Node → List Pod → Prop}

private theorem Accounts.imp {nodeClass : NodeClass} {node : Node} {info : NodeInfo}
    (accounts : config.Accounts listing nodeClass node info)
    (listed : ∀ node pods, listing node pods → others node pods) :
    config.Accounts others nodeClass node info := by
  obtain ⟨pods, came, ordered⟩ := accounts.pods
  exact ⟨accounts.same, ⟨pods, listed node pods came, ordered⟩, accounts.counted⟩

/-- One right account for each node of a list, put in order by requested CPU. -/
def Arranges (config : NodeMapConfig) (listing : Node → List Pod → Prop)
    (nodeClass : NodeClass) (precedes : Int → Int → Prop) (nodes : List Node)
    (infos : List NodeInfo) : Prop :=
  ∃ accounts, List.Forall₂ (config.Accounts listing nodeClass) nodes accounts ∧
    StablyOrdered NodeInfo.requestedCpu precedes accounts infos

namespace Arranges

variable {nodeClass : NodeClass} {precedes : Int → Int → Prop} {nodes : List Node}
  {infos : List NodeInfo}

theorem imp (arranges : config.Arranges listing nodeClass precedes nodes infos)
    (listed : ∀ node pods, listing node pods → others node pods) :
    config.Arranges others nodeClass precedes nodes infos := by
  obtain ⟨accounts, right, ordered⟩ := arranges
  exact ⟨accounts, right.imp fun _ _ here => here.imp listed, ordered⟩

/-- The nodes of the accounts are the nodes that were to be accounted. -/
theorem nodes_perm (arranges : config.Arranges listing nodeClass precedes nodes infos) :
    (infos.map (·.node)).Perm nodes := by
  obtain ⟨accounts, right, ordered⟩ := arranges
  have same : accounts.map (·.node) = nodes := by
    clear ordered
    induction right with
    | nil => rfl
    | cons here rest ih => rw [List.map_cons, here.same, ih]
  exact same ▸ ordered.perm.map _

/-- Arranged nodes are counted right. -/
theorem counted (arranges : config.Arranges listing nodeClass precedes nodes infos) :
    ∀ info ∈ infos, info.Counted := by
  obtain ⟨accounts, right, ordered⟩ := arranges
  have each : ∀ info ∈ accounts, info.Counted := by
    clear ordered
    induction right with
    | nil => exact fun _ member => absurd member List.not_mem_nil
    | cons here rest ih => exact List.forall_mem_cons.mpr ⟨here.counted, ih⟩
  exact fun info member => each info (ordered.perm.mem_iff.mp member)

end Arranges

private theorem candidates_ofClass {nodeClass : NodeClass} (classed : nodeClass ≠ .none)
    (nodes : List Node) :
    ((config.candidates nodes).filter fun entry => entry.2 == nodeClass).map (·.1) =
      nodes.filter fun node => config.classify node == nodeClass := by
  rw [candidates, List.filter_filter, List.filter_map, List.map_map]
  have forget : Prod.fst ∘ (fun node => (node, config.classify node)) = id := rfl
  rw [forget, List.map_id]
  apply List.filter_congr
  intro node _
  by_cases same : config.classify node = nodeClass
  · simp only [Function.comp_apply, same, BEq.rfl, classed, ne_eq, not_false_eq_true,
      decide_true, Bool.and_self]
  · simp only [Function.comp_apply, beq_eq_false_iff_ne.mpr same, Bool.false_and]

private theorem classify_eq_spot {node : Node} :
    (config.classify node == .spot) = config.spotRule.accepts node.labels := by
  rw [classify, Node.classify, NodeClass.ofLabels]
  cases config.spotRule.accepts node.labels <;> cases config.onDemandRule.accepts node.labels <;> rfl

private theorem classify_eq_onDemand {node : Node} :
    (config.classify node == .onDemand) =
      (config.onDemandRule.accepts node.labels && !config.spotRule.accepts node.labels) := by
  rw [classify, Node.classify, NodeClass.ofLabels]
  cases config.spotRule.accepts node.labels <;> cases config.onDemandRule.accepts node.labels <;> rfl

/-- The nodes of a class are the spot nodes and the on-demand nodes. -/
theorem filter_classes_perm (config : NodeMapConfig) (nodes : List Node) :
    ((nodes.filter fun node => config.spotRule.accepts node.labels) ++
      nodes.filter fun node =>
        config.onDemandRule.accepts node.labels && !config.spotRule.accepts node.labels).Perm
      (nodes.filter fun node => config.classify node ≠ .none) := by
  refine .trans ?_ (List.filter_append_perm (fun node => config.spotRule.accepts node.labels) _)
  simp only [List.filter_filter]
  refine (List.Perm.of_eq ?_).append (List.Perm.of_eq ?_)
  · apply List.filter_congr
    intro node _
    rw [classify, Node.classify, NodeClass.ofLabels]
    cases config.spotRule.accepts node.labels <;> rfl
  · apply List.filter_congr
    intro node _
    rw [classify, Node.classify, NodeClass.ofLabels]
    cases config.spotRule.accepts node.labels <;>
      cases config.onDemandRule.accepts node.labels <;> rfl

/-- The accounts of one class are those of its nodes, in their order. -/
theorem accounts_ofClass {nodes : List Node} {results : List (NodeClass × NodeInfo)}
    (made : List.Forall₂ (fun entry result =>
      result.1 = entry.2 ∧ config.Accounts listing entry.2 entry.1 result.2)
      (config.candidates nodes) results) (nodeClass : NodeClass) (classed : nodeClass ≠ .none) :
    List.Forall₂ (config.Accounts listing nodeClass)
      (nodes.filter fun node => config.classify node == nodeClass)
      ((results.filter (·.1 == nodeClass)).map (·.2)) := by
  rw [← candidates_ofClass classed, List.forall₂_map_left_iff, List.forall₂_map_right_iff]
  have filtered := List.rel_filter (p := fun entry : Node × NodeClass => entry.2 == nodeClass)
    (q := fun result : NodeClass × NodeInfo => result.1 == nodeClass)
    (fun entry result here => by
      change (entry.2 == nodeClass) = true ↔ (result.1 == nodeClass) = true
      rw [here.1]) made
  have ofClass : ∀ entry ∈ (config.candidates nodes).filter fun entry => entry.2 == nodeClass,
      entry.2 = nodeClass := fun entry member => eq_of_beq (List.mem_filter.mp member).2
  refine ((List.forall₂_and_left _ _).mpr ⟨ofClass, filtered⟩).imp ?_
  rintro entry result ⟨same, -, accounts⟩
  exact same ▸ accounts

end NodeMapConfig

namespace NodeMap

variable {config : NodeMapConfig} {answer : Node → Except Fault (List Pod)} {lister : PodLister}

/-- Whatever the lister, a map that is built is arranged by class and requested CPU. -/
theorem build_yields_arranged (schedule : List PoolMove) (nodes : List Node) :
    (build config lister schedule nodes).Yields fun map =>
      config.Arranges lister.MayList .spot (· ≥ ·)
          (nodes.filter fun node => config.spotRule.accepts node.labels) map.spot ∧
        config.Arranges lister.MayList .onDemand (· ≤ ·)
          (nodes.filter fun node =>
            config.onDemandRule.accepts node.labels && !config.spotRule.accepts node.labels)
          map.onDemand := by
  intro session map built
  obtain ⟨results, made, rfl⟩ := build_yields schedule nodes session map built
  have spot := NodeMapConfig.accounts_ofClass made .spot (by decide)
  have onDemand := NodeMapConfig.accounts_ofClass made .onDemand (by decide)
  simp only [NodeMapConfig.classify_eq_spot] at spot
  simp only [NodeMapConfig.classify_eq_onDemand] at onDemand
  exact ⟨⟨_, spot, stablyOrdered_mergeSort NodeInfo.requestedCpu (· ≥ ·) _⟩,
    ⟨_, onDemand, stablyOrdered_mergeSort NodeInfo.requestedCpu (· ≤ ·) _⟩⟩

/-- The nodes of a map that is built are the nodes of a class. -/
theorem build_yields_nodes (schedule : List PoolMove) (nodes : List Node) :
    (build config lister schedule nodes).Yields fun map =>
      ((map.spot ++ map.onDemand).map (·.node)).Perm
        (nodes.filter fun node => config.classify node ≠ .none) := by
  intro session map built
  obtain ⟨spot, onDemand⟩ := build_yields_arranged schedule nodes session map built
  rw [List.map_append]
  exact (spot.nodes_perm.append onDemand.nodes_perm).trans (config.filter_classes_perm nodes)

/-- All nodes of a map that is built are counted right. -/
theorem build_yields_counted (schedule : List PoolMove) (nodes : List Node) :
    (build config lister schedule nodes).Yields fun map =>
      ∀ info ∈ map.spot ++ map.onDemand, info.Counted := by
  intro session map built info member
  obtain ⟨spot, onDemand⟩ := build_yields_arranged schedule nodes session map built
  cases List.mem_append.mp member with
  | inl inSpot => exact spot.counted info inSpot
  | inr inOnDemand => exact onDemand.counted info inOnDemand

/-- **What a built map holds.** Whatever the nodes and the fixed answers of the lister, a map that is
built has the two classes and no other; each class holds one right account for each position of the
list whose node is of that class, a node that matches both rules being a spot node; and the accounts
are in the order in which spot nodes are drained and on-demand nodes are filled. -/
theorem build_arranges (answers : lister.Answers answer) (schedule : List PoolMove)
    (nodes : List Node) (session : Session) {map : NodeMap}
    (built : (build config lister schedule nodes session).1 = .ok map) :
    map.byClass.map Prod.fst = [.spot, .onDemand] ∧
      config.Arranges (fun node pods => answer node = .ok pods) .spot (· ≥ ·)
        (nodes.filter fun node => config.spotRule.accepts node.labels) map.spot ∧
      config.Arranges (fun node pods => answer node = .ok pods) .onDemand (· ≤ ·)
        (nodes.filter fun node =>
          config.onDemandRule.accepts node.labels && !config.spotRule.accepts node.labels)
        map.onDemand := by
  have listed : ∀ node pods, lister.MayList node pods → answer node = .ok pods := by
    rintro node pods ⟨session, came⟩
    exact (answers node session).symm.trans came
  obtain ⟨spot, onDemand⟩ := build_yields_arranged schedule nodes session map built
  exact ⟨rfl, spot.imp listed, onDemand.imp listed⟩

end NodeMap

/-! ## A small fleet

Two spot nodes, the one with the pods behind the other one, an on-demand node and a node of no class.
-/

namespace SmallFleet

def large : Pod := Inventory.pod "batch" "large" 0 ["700m", "200m"]
def small : Pod := Inventory.pod "batch" "small" 5 ["100m"]
def unimportant : Pod := Inventory.pod "batch" "unimportant" (-1) ["900m"]
def idle : Node := Inventory.node "idle" "4" ["kubernetes.io/role=spot-worker"]
def busy : Node := Inventory.node "busy" "0.5" ["kubernetes.io/role=spot-worker"]
def stable : Node := Inventory.node "stable" "2" ["kubernetes.io/role=worker"]
def control : Node := Inventory.node "control" "2" []

def nodes : List Node := [idle, control, stable, busy]

/-- The pods on the node of a name, in the order in which they are listed. -/
def podsOn : Option String → List Pod
  | some "busy" => [small, unimportant, large]
  | some "stable" => [small]
  | _ => []

def answer (node : Node) : Except Fault (List Pod) := do return podsOn (← node.name)

/-- The busy node is overcommitted, and is drained first. -/
def map : NodeMap where
  spot := [⟨busy, [large, small], 1000, -500⟩, ⟨idle, [], 0, 4000⟩]
  onDemand := [⟨stable, [small], 100, 1900⟩]

private theorem large_cpuRequest : large.cpuRequest = .ok 900 := by decide +kernel

private theorem small_cpuRequest : small.cpuRequest = .ok 100 := by decide +kernel

private theorem sortByCpu_small_large : sortByCpu [small, large] = .ok [large, small] := by
  simp only [sortByCpu, weighPods, small_cpuRequest, large_cpuRequest, Outcome.ok_bind, pure,
    Except.pure]
  simp [List.mergeSort, List.MergeSort.Internal.splitInTwo]

private theorem accounted_busy :
    NodeMapConfig.standard.accounted answer busy .spot =
      .ok ⟨busy, [large, small], 1000, -500⟩ := by
  have offered : busy.allocatableCpu = .ok 500 := by decide +kernel
  have listed : answer busy = .ok [small, unimportant, large] := rfl
  have ignored : NodeMapConfig.standard.ignored .spot [small, unimportant, large] =
      [unimportant] := rfl
  have reported : NodeMapConfig.standard.reportable busy unimportant = .ok () := by decide +kernel
  have kept : NodeMapConfig.standard.retained busy .spot [small, unimportant, large] =
      .ok [small, large] := by
    rw [NodeMapConfig.retained, ignored, List.mapM_cons, reported]
    rfl
  simp only [NodeMapConfig.accounted, listed, kept, sortByCpu_small_large, Outcome.ok_bind,
    NodeInfo.ofPods, NodeInfo.count, requestedCpu, total, small_cpuRequest, large_cpuRequest, offered]
  rfl

private theorem accounted_stable :
    NodeMapConfig.standard.accounted answer stable .onDemand = .ok ⟨stable, [small], 100, 1900⟩ := by
  have offered : stable.allocatableCpu = .ok 2000 := by decide +kernel
  exact NodeMapConfig.accounted_of_one_pod rfl (by decide) small_cpuRequest offered

/-- The outcome of the small fleet is its map. -/
theorem outcome_eq : NodeMap.outcome .standard answer nodes = .ok map := by
  have candidates : NodeMapConfig.standard.candidates nodes =
      [(idle, .spot), (stable, .onDemand), (busy, .spot)] := rfl
  have arranged : NodeMap.assemble [(.spot, ⟨idle, [], 0, 4000⟩),
      (.onDemand, ⟨stable, [small], 100, 1900⟩),
      (.spot, ⟨busy, [large, small], 1000, -500⟩)] = map := by
    simp [NodeMap.assemble, map, List.mergeSort, List.MergeSort.Internal.splitInTwo]
  have summed : map.summary = .ok ("2 spot nodes (1000m requested), " ++
      "1 on-demand nodes (100m requested, 1900m free)") := by decide +kernel
  have idled : NodeMapConfig.standard.accounted answer idle .spot = .ok ⟨idle, [], 0, 4000⟩ :=
    NodeMapConfig.accounted_of_no_pods rfl (by decide +kernel)
  refine NodeMap.outcome_eq_ok_iff.mpr ⟨rfl, _, ?_, arranged, _, summed⟩
  rw [candidates]
  exact Outcome.mapM_eq_ok_iff.mpr (.cons (NodeMapConfig.entered_of_accounted idled)
    (.cons (NodeMapConfig.entered_of_accounted accounted_stable)
      (.cons (NodeMapConfig.entered_of_accounted accounted_busy) .nil)))

theorem fixed_answer : (PodLister.fixed answer).Answers answer := by
  apply PodLister.fixed_answers_of_named
  intro node fault unnamed
  rw [answer, unnamed]
  rfl

/-- The map of the small fleet is built. -/
theorem built : (NodeMap.build .standard (.fixed answer) [] nodes (.start 0 none)).1 = .ok map :=
  (NodeMap.build_returns fixed_answer.returns [] nodes _ trivial).1.trans outcome_eq

end SmallFleet

/-- The small fleet is arranged: spot nodes `busy` before `idle`, each with its pods. -/
theorem NodeMap.build_arranges_smallFleet :
    (build .standard (.fixed SmallFleet.answer) [] SmallFleet.nodes (.start 0 none)).1 =
        .ok SmallFleet.map ∧
      SmallFleet.map.byClass.map Prod.fst = [.spot, .onDemand] ∧
      NodeMapConfig.standard.Arranges (fun node pods => SmallFleet.answer node = .ok pods)
        .spot (· ≥ ·) [SmallFleet.idle, SmallFleet.busy] SmallFleet.map.spot ∧
      NodeMapConfig.standard.Arranges (fun node pods => SmallFleet.answer node = .ok pods)
        .onDemand (· ≤ ·) [SmallFleet.stable] SmallFleet.map.onDemand :=
  ⟨SmallFleet.built, build_arranges SmallFleet.fixed_answer [] SmallFleet.nodes _ SmallFleet.built⟩

end SpotCapacity
