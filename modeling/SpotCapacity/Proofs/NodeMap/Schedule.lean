import SpotCapacity.Proofs.NodeMap.Arrangement

/-!
# Schedules do not show

A map that is built on a pool is the map that is built in turn, and a build on a pool fails exactly
when a build in turn fails, with the same fault: the one of the first node in the order of the list
that cannot be accounted, whatever the order in which the accounts fail
(`NodeMap.build_eq_sequential`). A build that succeeds has left out no node of a class and has asked
for the pods of each once.
-/

namespace SpotCapacity

namespace NodeMapConfig

variable {config : NodeMapConfig} {answer : Node → Except Fault (List Pod)}

/-- The first node of a list that cannot be accounted fails with the given fault. All nodes are
named, so that the nodes of no class can be reported before any account is made. -/
structure FirstFailure (config : NodeMapConfig) (lister : PodLister) (session : Session)
    (before : List Node) (node : Node) (after : List Node) (fault : Fault) : Prop where
  named : ∀ other ∈ before ++ node :: after, config.classify other = .none →
    ∃ name, other.name = .ok name
  earlier : ∀ other ∈ before, config.classify other ≠ .none →
    ∃ info, (config.account lister other (config.classify other) session).1 = .ok info
  classified : config.classify node ≠ .none
  failed : (config.account lister node (config.classify node) session).1 = .error fault

private theorem candidates_append (before after : List Node) :
    config.candidates (before ++ after) = config.candidates before ++ config.candidates after := by
  rw [candidates, List.map_append, List.filter_append]
  rfl

private theorem candidates_cons_of_classified {node : Node} (classified : config.classify node ≠ .none)
    (rest : List Node) :
    config.candidates (node :: rest) = (node, config.classify node) :: config.candidates rest := by
  rw [candidates, List.map_cons]
  exact List.filter_cons_of_pos (decide_eq_true classified)

/-- If every excluded node has a name, all candidates are chosen. -/
theorem chosen_of_named {nodes : List Node}
    (named : ∀ node ∈ nodes, config.classify node = .none → ∃ name, node.name = .ok name) :
    config.chosen nodes = .ok (config.candidates nodes) := by
  have reported : ∀ node ∈ nodes.filter fun node => config.classify node = .none,
      ∃ name, node.name = .ok name := fun node member =>
    named node (List.mem_of_mem_filter member) (of_decide_eq_true (List.mem_filter.mp member).2)
  obtain ⟨names, came⟩ := Outcome.mapM_of_forall_ok reported
  rw [chosen, came]
  rfl

/-- The accounts of the chosen nodes fail as the first of them that fails. -/
theorem mapM_entered_of_firstFailure {lister : PodLister} (answers : lister.Answers answer)
    {session : Session} {before after : List Node} {node : Node} {fault : Fault}
    (first : config.FirstFailure lister session before node after fault) :
    (config.candidates (before ++ node :: after)).mapM (config.entered answer) = .error fault := by
  have comes : ∀ other nodeClass, (config.account lister other nodeClass session).1 =
      config.accounted answer other nodeClass := fun other nodeClass =>
    (account_returns answers.returns other nodeClass session trivial).1
  rw [candidates_append, candidates_cons_of_classified first.classified]
  apply Outcome.mapM_eq_error
  · intro entry member
    obtain ⟨listed, classified⟩ := List.mem_filter.mp member
    obtain ⟨other, early, rfl⟩ := List.mem_map.mp listed
    obtain ⟨info, accounted⟩ := first.earlier other early (of_decide_eq_true classified)
    rw [comes] at accounted
    exact ⟨(config.classify other, info), by rw [entered, accounted, Outcome.ok_bind]; rfl⟩
  · rw [entered, ← comes, first.failed, Outcome.error_bind]

end NodeMapConfig

namespace NodeMap

variable {answer : Node → Except Fault (List Pod)} {lister : PodLister}

/-- **Schedules do not show.** Whatever the number of workers and the schedule of the pool, a build
ends as the one that takes the nodes in turn. When it ends with a map, it has made the same calls and
the map has all nodes of a class; and when a node cannot be accounted, it ends with the fault of the
first such node of the list, a load fault or any other. -/
theorem build_eq_sequential (answers : lister.Answers answer) (config : NodeMapConfig)
    (workers : Int) (schedule : List PoolMove) (nodes : List Node) (session : Session) :
    let pooled := build { config with workers := workers } lister schedule nodes session
    let sequential := build { config with workers := 1 } lister [] nodes session
    pooled.1 = sequential.1 ∧
      (∀ asked map, lister.Asks asked → pooled.1 = .ok map →
        pooled.2.calls.Perm sequential.2.calls) ∧
      (∀ map, pooled.1 = .ok map → ((map.spot ++ map.onDemand).map (·.node)).Perm
        (nodes.filter fun node => config.classify node ≠ .none)) ∧
      ∀ before node after fault, nodes = before ++ node :: after →
        config.FirstFailure lister session before node after fault → pooled.1 = .error fault := by
  intro pooled sequential
  have ends : ∀ workers schedule,
      (build { config with workers := workers } lister schedule nodes session).1 =
        outcome config answer nodes := fun workers schedule =>
    (build_returns answers.returns schedule nodes session trivial).1
  have same : pooled.1 = sequential.1 := (ends workers schedule).trans (ends 1 []).symm
  refine ⟨same, ?_, ?_, ?_⟩
  · intro asked map asks built
    have came : outcome config answer nodes = .ok map := (ends workers schedule).symm.trans built
    have calls : ∀ workers schedule,
        (build { config with workers := workers } lister schedule nodes session).2.calls.Perm
          (session.calls ++ (config.candidates nodes).flatMap fun entry => asked entry.1) :=
      fun workers schedule => by
        have here : outcome { config with workers := workers } answer nodes = .ok map := came
        exact build_calls answers.returns asks.calls schedule here session trivial
    exact (calls workers schedule).trans (calls 1 []).symm
  · intro map built
    have whole : ((map.spot ++ map.onDemand).map (·.node)).Perm (nodes.filter fun node =>
        ({ config with workers := workers } : NodeMapConfig).classify node ≠ .none) :=
      build_yields_nodes schedule nodes session map built
    exact whole
  · rintro before node after fault rfl first
    have failed := NodeMapConfig.mapM_entered_of_firstFailure answers first
    refine (ends workers schedule).trans ?_
    rw [outcome, NodeMapConfig.chosen_of_named first.named, Outcome.ok_bind, failed,
      Outcome.error_bind]

end NodeMap

/-! ## Two faults on a pool

In the small fleet, a pod on the on-demand node cannot be counted and the pods on the spot node behind
it cannot be listed. Two workers find the second fault first.
-/

namespace SmallFleet

def unreadable : Pod := Inventory.pod "batch" "unreadable" 0 ["1x"]

def faultyAnswer (node : Node) : Except Fault (List Pod) := do
  match ← node.name with
  | some "busy" => .error (.query (.podsOn (some "busy")) (.retries none))
  | some "stable" => return [small, unreadable]
  | _ => return []

private theorem accounted_stable_of_unreadable :
    NodeMapConfig.standard.accounted (fun node => node.name >>= fun _ => faultyAnswer node) stable
      (NodeMapConfig.standard.classify stable) = .error (.quantity (.numberFormat "1x")) := by
  have readable : small.cpuRequest = .ok 100 := by decide +kernel
  have failed : unreadable.cpuRequest = .error (.quantity (.numberFormat "1x")) := by
    decide +kernel
  have listed : (stable.name >>= fun _ => faultyAnswer stable) = .ok [small, unreadable] := rfl
  have onDemand : NodeMapConfig.standard.classify stable = .onDemand := by decide +kernel
  have kept : NodeMapConfig.standard.retained stable .onDemand [small, unreadable] =
      .ok [small, unreadable] := rfl
  rw [NodeMapConfig.accounted, listed, Outcome.ok_bind, onDemand, kept, Outcome.ok_bind]
  simp only [sortByCpu, weighPods, readable, failed, Outcome.ok_bind, Outcome.error_bind]

def schedule : List PoolMove := [.start, .finish 0, .start, .start, .finish 2, .observe, .finish 1]

end SmallFleet

/-- The first fault in the order of the nodes is the outcome, though a load fault comes before it. Without
faults the same calls are made. -/
theorem NodeMap.build_eq_sequential_smallFleet :
    (build { NodeMapConfig.standard with workers := 2 } (.fixed SmallFleet.faultyAnswer)
        SmallFleet.schedule SmallFleet.nodes (.start 0 none)).1 =
      .error (.quantity (.numberFormat "1x")) ∧
    (build { NodeMapConfig.standard with workers := 2 } (.fixed SmallFleet.answer)
        SmallFleet.schedule SmallFleet.nodes (.start 0 none)).2.calls.Perm
      (build { NodeMapConfig.standard with workers := 1 } (.fixed SmallFleet.answer)
        [] SmallFleet.nodes (.start 0 none)).2.calls := by
  have answers := PodLister.fixed_answers SmallFleet.faultyAnswer
  have comes : ∀ node nodeClass,
      (NodeMapConfig.standard.account (.fixed SmallFleet.faultyAnswer) node nodeClass
          (.start 0 none)).1 =
        NodeMapConfig.standard.accounted (fun node => node.name >>= fun _ =>
          SmallFleet.faultyAnswer node) node nodeClass := fun node nodeClass =>
    (NodeMapConfig.account_returns answers.returns node nodeClass _ trivial).1
  have first : NodeMapConfig.standard.FirstFailure (.fixed SmallFleet.faultyAnswer)
      (.start 0 none) [SmallFleet.idle, SmallFleet.control] SmallFleet.stable [SmallFleet.busy]
      (.quantity (.numberFormat "1x")) := by
    refine ⟨?_, ?_, by decide +kernel, ?_⟩
    · simp only [List.cons_append, List.nil_append, List.forall_mem_cons]
      exact ⟨fun _ => ⟨_, rfl⟩, fun _ => ⟨_, rfl⟩, fun _ => ⟨_, rfl⟩, fun _ => ⟨_, rfl⟩, by simp⟩
    · simp only [comes, List.forall_mem_cons]
      have idle : SmallFleet.idle.allocatableCpu = .ok 4000 := by decide +kernel
      refine ⟨fun _ => ⟨_, NodeMapConfig.accounted_of_no_pods rfl idle⟩, ?_, by simp⟩
      exact fun classified => absurd (by decide +kernel) classified
    · rw [comes]
      exact SmallFleet.accounted_stable_of_unreadable
  refine ⟨(build_eq_sequential answers .standard 2 SmallFleet.schedule SmallFleet.nodes
    (.start 0 none)).2.2.2 _ _ _ _ rfl first, ?_⟩
  have built : (build { NodeMapConfig.standard with workers := 2 } (.fixed SmallFleet.answer)
      SmallFleet.schedule SmallFleet.nodes (.start 0 none)).1 = .ok SmallFleet.map :=
    (build_returns SmallFleet.fixed_answer.returns _ _ _ trivial).1.trans SmallFleet.outcome_eq
  exact (build_eq_sequential SmallFleet.fixed_answer .standard 2 SmallFleet.schedule SmallFleet.nodes
    (.start 0 none)).2.1 _ _ (PodLister.fixed_asks SmallFleet.answer) built

end SpotCapacity
