import SpotCapacity.NodeMap.Build
import SpotCapacity.Proofs.Accounting
import SpotCapacity.Proofs.Pool

/-!
# What a build comes to

The outcome of building a node map as a function of the nodes and of what the lister answers
(`NodeMap.outcome`): no session, no schedule and no number of workers occurs in it. The accounting of
one node comes to `NodeMapConfig.accounted`, and a build of a map, in turn or on a pool, comes to
`NodeMap.outcome` (`NodeMap.build_returns`).
-/

namespace SpotCapacity

namespace PodLister

/-- A lister answers each node in the same way whenever it is asked. -/
def Answers (lister : PodLister) (answer : Node → Except Fault (List Pod)) : Prop :=
  ∀ node session, (lister node session).1 = answer node

/-- A lister makes the same calls for a node whenever it is asked. -/
def Asks (lister : PodLister) (asked : Node → List ApiCall) : Prop :=
  ∀ node session, (lister node session).2.calls = session.calls ++ asked node

/-- A lister may list pods on a node: it does so in some session. -/
def MayList (lister : PodLister) (node : Node) (pods : List Pod) : Prop :=
  ∃ session, (lister node session).1 = .ok pods

/-- A lister with fixed answers returns them. -/
theorem Answers.returns {lister : PodLister} {answer : Node → Except Fault (List Pod)}
    (answers : lister.Answers answer) (node : Node) :
    (lister node).Returns anySession (answer node) :=
  fun session _ => ⟨answers node session, trivial⟩

/-- A lister that asks in a fixed way makes the calls for it. -/
theorem Asks.calls {lister : PodLister} {asked : Node → List ApiCall} (asks : lister.Asks asked)
    (node : Node) : (lister node).Calls anySession (asked node) :=
  fun session _ => ⟨asks node session, trivial⟩

/-- A fixed lister answers every node that has a name. -/
theorem fixed_answers (answer : Node → Except Fault (List Pod)) :
    (fixed answer).Answers fun node => node.name >>= fun _ => answer node := by
  intro node session
  have returned : (fixed answer node).Returns anySession (node.name >>= fun _ => answer node) :=
    (Act.returns_ofExcept node.name).bind fun name _ =>
      (Act.returns_note _).bind fun _ _ => Act.returns_ofExcept (answer node)
  exact (returned session trivial).1

/-- Answers that fail on nodes without a name are those of their fixed lister. -/
theorem fixed_answers_of_named {answer : Node → Except Fault (List Pod)}
    (needs : ∀ node fault, node.name = .error fault → answer node = .error fault) :
    (fixed answer).Answers answer := by
  intro node session
  rw [fixed_answers answer node session]
  dsimp only
  cases named : node.name with
  | error fault => exact (needs node fault named).symm
  | ok name => rfl

/-- A fixed lister makes one call for a node that has a name. -/
theorem fixed_asks (answer : Node → Except Fault (List Pod)) :
    (fixed answer).Asks fun node =>
      match node.name with
      | .ok name => [.listPods name]
      | .error _ => [] := by
  intro node session
  dsimp only
  cases named : node.name with
  | error fault =>
      rw [fixed, named]
      exact (List.append_nil _).symm
  | ok name =>
      rw [fixed, named]
      have called : (Act.note (.called (.listPods name)) >>= fun _ =>
          Act.ofExcept (answer node)).Calls anySession [.listPods name] :=
        (Act.calls_called (.listPods name)).bind_silent fun _ => Act.calls_ofExcept (answer node)
      exact (called session trivial).1

end PodLister

namespace NodeMapConfig

variable (config : NodeMapConfig) {kind : Session → Prop} [SessionKind kind]

/-- The pods that count on a node of a class: on spot nodes only those that are important enough. -/
def counting (nodeClass : NodeClass) (pods : List Pod) : List Pod :=
  if nodeClass = .spot then pods.filter fun pod => config.threshold ≤ pod.priority else pods

/-- The pods that do not count on a node of a class: on spot nodes those below the threshold. -/
def ignored (nodeClass : NodeClass) (pods : List Pod) : List Pod :=
  if nodeClass = .spot then pods.filter fun pod => pod.priority < config.threshold else []

/-- The report of a pod that does not count on a node names both, and writes the two numbers by which
the pod does not count. -/
def reportable (node : Node) (pod : Pod) : Except Fault Unit := do
  let _ ← node.name
  let _ ← pod.key
  let _ ← integerText pod.priority
  let _ ← integerText config.threshold

/-- Leaving out the pods that do not count on a node of a class, with a report of each. -/
def retained (node : Node) (nodeClass : NodeClass) (pods : List Pod) : Except Fault (List Pod) := do
  let _ ← (config.ignored nodeClass pods).mapM (config.reportable node)
  return config.counting nodeClass pods

def accounted (answer : Node → Except Fault (List Pod)) (node : Node) (nodeClass : NodeClass) :
    Except Fault NodeInfo := do
  let listed ← answer node
  let pods ← config.retained node nodeClass listed
  let sorted ← sortByCpu pods
  NodeInfo.ofPods node sorted

private theorem retained_cons_of_low {node : Node} {pod : Pod} (low : pod.priority < config.threshold)
    (rest : List Pod) :
    config.retained node .spot (pod :: rest) = (do
      let _ ← config.reportable node pod
      config.retained node .spot rest) := by
  have high : ¬ config.threshold ≤ pod.priority := Int.not_le.mpr low
  simp only [retained, counting, ignored, ↓reduceIte, List.filter_cons, low, high, decide_true,
    decide_false, Bool.false_eq_true, List.mapM_cons, bind_assoc, pure_bind]

private theorem retained_cons_of_high {node : Node} {pod : Pod} (high : ¬ pod.priority < config.threshold)
    (rest : List Pod) :
    config.retained node .spot (pod :: rest) = (do
      let others ← config.retained node .spot rest
      .ok (pod :: others)) := by
  have counts : config.threshold ≤ pod.priority := Int.not_lt.mp high
  simp only [retained, counting, ignored, ↓reduceIte, List.filter_cons, high, counts, decide_true,
    decide_false, Bool.false_eq_true, bind_assoc, pure_bind]
  rfl

private theorem dropLowPriority_returns (node : Node) (pods : List Pod) :
    (config.dropLowPriority node pods).Returns kind (config.retained node .spot pods) := by
  induction pods with
  | nil => exact Act.returns_pure []
  | cons pod rest ih =>
      rw [dropLowPriority]
      by_cases low : pod.priority < config.threshold
      · rw [if_pos low, config.retained_cons_of_low low, reportable]
        simp only [bind_assoc]
        exact (Act.returns_ofExcept node.name).bind fun name _ =>
          (Act.returns_ofExcept pod.key).bind fun key _ =>
            (Act.returns_ofExcept (integerText pod.priority)).bind fun priority _ =>
              (Act.returns_ofExcept (integerText config.threshold)).bind fun threshold _ =>
                (Act.returns_log _ _ _).bind fun _ _ => ih
      · rw [if_neg low, config.retained_cons_of_high low]
        exact ih.bind fun others _ => Act.returns_pure (pod :: others)

/-- What is left after reporting the pods of low priority is what counts. -/
theorem counting_of_retained {node : Node} {nodeClass : NodeClass} {listed pods : List Pod}
    (retained : config.retained node nodeClass listed = .ok pods) :
    pods = config.counting nodeClass listed := by
  obtain ⟨_, -, same⟩ := Outcome.bind_eq_ok_iff.mp retained
  exact (Except.ok.inj same).symm

private theorem dropLowPriority_calls (node : Node) (pods : List Pod) :
    (config.dropLowPriority node pods).Calls kind [] := by
  induction pods with
  | nil => exact Act.calls_pure []
  | cons pod rest ih =>
      rw [dropLowPriority]
      split
      · exact (Act.calls_ofExcept node.name).bind_silent fun _ =>
          (Act.calls_ofExcept pod.key).bind_silent fun _ =>
            (Act.calls_ofExcept _).bind_silent fun _ =>
              (Act.calls_ofExcept _).bind_silent fun _ =>
                (Act.calls_log _ _ _).bind_silent fun _ => ih
      · exact ih.bind_silent fun _ => Act.calls_pure _

variable {config} {lister : PodLister} {answer : Node → Except Fault (List Pod)}
  {asked : Node → List ApiCall}

/-- Leaving out pods is one part of the accounting on nodes of either class. -/
theorem account_eq (node : Node) (nodeClass : NodeClass) :
    config.account lister node nodeClass =
      lister node >>= fun listed =>
        (if nodeClass = .spot then config.dropLowPriority node listed else pure listed) >>=
          fun pods => Act.ofExcept (sortByCpu pods) >>=
            fun sorted => Act.ofExcept (NodeInfo.ofPods node sorted) := by
  rw [account]
  congr 1
  funext listed
  split <;> rfl

private theorem keep_returns (node : Node) (nodeClass : NodeClass) (listed : List Pod) :
    (if nodeClass = .spot then config.dropLowPriority node listed
      else pure listed).Returns kind (config.retained node nodeClass listed) := by
  by_cases spot : nodeClass = .spot
  · rw [if_pos spot, spot]
    exact dropLowPriority_returns config node listed
  · rw [if_neg spot, retained, ignored, if_neg spot, counting, if_neg spot]
    exact Act.returns_pure listed

/-- Accounting a node returns the account of its answer. -/
theorem account_returns (answers : ∀ node, (lister node).Returns kind (answer node)) (node : Node)
    (nodeClass : NodeClass) :
    (config.account lister node nodeClass).Returns kind
      (config.accounted answer node nodeClass) := by
  rw [account_eq]
  apply (answers node).bind
  intro listed _
  exact (keep_returns node nodeClass listed).bind fun pods _ =>
    (Act.returns_ofExcept _).bind fun sorted _ => Act.returns_ofExcept _

/-- A node without pods offers all that it has. -/
theorem accounted_of_no_pods {node : Node} {nodeClass : NodeClass} {allocatable : Int}
    (listed : answer node = .ok []) (offered : node.allocatableCpu = .ok allocatable) :
    config.accounted answer node nodeClass = .ok ⟨node, [], 0, allocatable⟩ := by
  have kept : config.retained node nodeClass [] = .ok [] := by cases nodeClass <;> rfl
  have order : sortByCpu [] = .ok [] := sortByCpu_eq_ok_iff.mpr ⟨by simp, by simp⟩
  have account : NodeInfo.ofPods node [] = .ok ⟨node, [], 0, allocatable⟩ :=
    NodeInfo.ofPods_eq_ok_iff.mpr ⟨rfl, rfl, by simp, rfl, allocatable, offered, (sub_zero _).symm⟩
  rw [accounted, listed, Outcome.ok_bind, kept, Outcome.ok_bind, order, Outcome.ok_bind, account]

/-- A node with one pod, which counts, offers the rest. -/
theorem accounted_of_one_pod {node : Node} {nodeClass : NodeClass} {pod : Pod} {cpu allocatable : Int}
    (listed : answer node = .ok [pod]) (counts : config.threshold ≤ pod.priority)
    (counted : pod.cpuRequest = .ok cpu) (offered : node.allocatableCpu = .ok allocatable) :
    config.accounted answer node nodeClass = .ok ⟨node, [pod], cpu, allocatable - cpu⟩ := by
  have notLow : ¬ pod.priority < config.threshold := Int.not_lt.mpr counts
  have kept : config.retained node nodeClass [pod] = .ok [pod] := by
    simp only [retained, ignored, counting, List.filter_cons, notLow, counts, decide_false, decide_true,
      Bool.false_eq_true, ↓reduceIte, List.filter_nil, ite_self, List.mapM_nil]
    rfl
  have countable : ∀ other ∈ [pod], other.Countable :=
    List.forall_mem_singleton.mpr (Pod.countable_of_cpuRequest counted)
  have weight : ([pod].map Pod.cpu).sum = cpu := by
    rw [List.map_singleton, List.sum_singleton, Pod.cpu, amountOf_eq counted]
  have order : sortByCpu [pod] = .ok [pod] :=
    sortByCpu_eq_ok_iff.mpr ⟨countable, (List.mergeSort_singleton pod).symm⟩
  have account : NodeInfo.ofPods node [pod] = .ok ⟨node, [pod], cpu, allocatable - cpu⟩ :=
    NodeInfo.ofPods_eq_ok_iff.mpr ⟨rfl, rfl, countable, weight.symm, allocatable, offered, rfl⟩
  rw [accounted, listed, Outcome.ok_bind, kept, Outcome.ok_bind, order, Outcome.ok_bind, account]

/-- Accounting a node asks the lister once and makes no other call, whatever comes of it. -/
theorem account_calls (asks : ∀ node, (lister node).Calls kind (asked node)) (node : Node)
    (nodeClass : NodeClass) : (config.account lister node nodeClass).Calls kind (asked node) := by
  rw [account_eq]
  refine (asks node).bind_silent fun listed => Act.Calls.bind_silent ?_ fun pods =>
    (Act.calls_ofExcept _).bind_silent fun sorted => Act.calls_ofExcept _
  split
  · exact dropLowPriority_calls config node listed
  · exact Act.calls_pure listed

/-- A right account of a node of a class, with the pods that count among those listed on it. -/
structure Accounts (config : NodeMapConfig) (listing : Node → List Pod → Prop)
    (nodeClass : NodeClass) (node : Node) (info : NodeInfo) : Prop where
  same : info.node = node
  pods : ∃ listed, listing node listed ∧
    StablyOrdered Pod.cpu (· ≥ ·) (config.counting nodeClass listed) info.pods
  counted : info.Counted

private theorem account_yields (node : Node) (nodeClass : NodeClass) :
    (config.account lister node nodeClass).Yields
      (config.Accounts lister.MayList nodeClass node) := by
  rw [account_eq]
  refine (Act.yields_self (lister node)).bind fun listed listing => ?_
  refine (keep_returns node nodeClass listed).yields.bind fun pods kept =>
    (Act.yields_ofExcept fun sorted order => order).bind fun sorted order =>
      Act.yields_ofExcept fun info account => ?_
  obtain ⟨sameNode, samePods, counted⟩ := NodeInfo.ofPods_eq_ok_iff.mp account
  obtain rfl := config.counting_of_retained kept
  exact ⟨sameNode, ⟨listed, listing, samePods ▸ sortByCpu_stablyOrdered order⟩, counted⟩

private theorem accountReporting_yields (node : Node) (nodeClass : NodeClass) :
    (config.accountReporting lister node nodeClass).Yields
      (config.Accounts lister.MayList nodeClass node) := by
  rw [accountReporting]
  refine (account_yields node nodeClass).outcome.bind fun outcome accounts => ?_
  cases outcome with
  | ok info => exact Act.yields_pure (accounts info rfl)
  | error fault =>
      dsimp only
      split
      · exact (Act.yields_any _).bind fun _ _ => (Act.yields_any _).bind fun _ _ =>
          Act.yields_throw fault
      · exact Act.yields_throw fault

private theorem accountReporting_returns (answers : ∀ node, (lister node).Returns kind (answer node))
    {node : Node} (named : ∃ name, node.name = .ok name) (nodeClass : NodeClass) :
    (config.accountReporting lister node nodeClass).Returns kind
      (config.accounted answer node nodeClass) := by
  obtain ⟨name, named⟩ := named
  rw [accountReporting]
  have step : (Act.outcome (config.account lister node nodeClass)).Returns kind
      (.ok (config.accounted answer node nodeClass)) :=
    (account_returns answers node nodeClass).outcome
  refine step.bind_ok ?_
  cases config.accounted answer node nodeClass with
  | ok info => exact Act.returns_pure info
  | error fault =>
      dsimp only
      split
      · rw [named]
        exact (Act.returns_ofExcept _).bind fun _ _ =>
          (Act.returns_log _ _ _).bind fun _ _ => Act.returns_throw fault
      · exact Act.returns_throw fault

private theorem accountReporting_calls (asks : ∀ node, (lister node).Calls kind (asked node)) (node : Node)
    (nodeClass : NodeClass) :
    (config.accountReporting lister node nodeClass).Calls kind (asked node) := by
  rw [accountReporting]
  refine (account_calls asks node nodeClass).outcome.bind_silent fun outcome => ?_
  cases outcome with
  | ok info => exact Act.calls_pure info
  | error fault =>
      dsimp only
      split
      · exact (Act.calls_ofExcept _).bind_silent fun _ =>
          (Act.calls_log _ _ _).bind_silent fun _ => Act.calls_throw fault
      · exact Act.calls_throw fault

section

variable (config)

/-- The nodes of a class with their class, in the order of the list. -/
def candidates (nodes : List Node) : List (Node × NodeClass) :=
  (nodes.map fun node => (node, config.classify node)).filter fun entry => entry.2 ≠ .none

/-- Choosing the nodes of a class, with a report of each of the others that names it. -/
def chosen (nodes : List Node) : Except Fault (List (Node × NodeClass)) := do
  let _ ← (nodes.filter fun node => config.classify node = .none).mapM Node.name
  return config.candidates nodes

/-- The nodes that are chosen are the candidates. -/
theorem candidates_of_chosen {nodes : List Node} {entries : List (Node × NodeClass)}
    (chosen : config.chosen nodes = .ok entries) : entries = config.candidates nodes := by
  obtain ⟨_, -, same⟩ := Outcome.bind_eq_ok_iff.mp chosen
  exact (Except.ok.inj same).symm

/-- The account of a chosen node with its class. -/
def entered (answer : Node → Except Fault (List Pod)) (entry : Node × NodeClass) :
    Except Fault (NodeClass × NodeInfo) := do
  let info ← config.accounted answer entry.1 entry.2
  return (entry.2, info)

/-- A node that is accounted is entered with its class. -/
theorem entered_of_accounted {config : NodeMapConfig} {answer : Node → Except Fault (List Pod)}
    {node : Node} {nodeClass : NodeClass} {info : NodeInfo}
    (accounted : config.accounted answer node nodeClass = .ok info) :
    config.entered answer (node, nodeClass) = .ok (nodeClass, info) := by
  rw [entered, accounted, Outcome.ok_bind]
  rfl

/-- A node without metadata has no labels, and so no class. -/
theorem named_of_classify {node : Node} (classified : config.classify node ≠ .none) :
    ∃ name, node.name = .ok name := by
  cases present : node.metadata with
  | some metadata => exact ⟨metadata.name, by rw [Node.name, present]⟩
  | none =>
      refine absurd ?_ classified
      simp only [classify, Node.classify, Node.labels, present, Option.bind_none, Option.getD_none,
        NodeClass.ofLabels, LabelRule.accepts, List.lookup_nil, Bool.false_eq_true, ↓reduceIte]

private theorem named_of_candidates {nodes : List Node} {entry : Node × NodeClass}
    (member : entry ∈ config.candidates nodes) : ∃ name, entry.1.name = .ok name := by
  obtain ⟨listed, classified⟩ := List.mem_filter.mp member
  obtain ⟨node, -, rfl⟩ := List.mem_map.mp listed
  exact config.named_of_classify (of_decide_eq_true classified)

/-- An excluded node is not chosen, but its name is asked for. -/
theorem chosen_cons_of_excluded {node : Node} (excluded : config.classify node = .none)
    (rest : List Node) :
    config.chosen (node :: rest) = (do
      let _ ← node.name
      config.chosen rest) := by
  simp only [chosen, candidates, List.map_cons, List.filter_cons, excluded, decide_true,
    ↓reduceIte, ne_eq, not_true_eq_false, decide_false, Bool.false_eq_true, List.mapM_cons,
    bind_assoc, pure_bind]

/-- A classified node is chosen with its class. -/
theorem chosen_cons_of_classified {node : Node} (classified : config.classify node ≠ .none)
    (rest : List Node) :
    config.chosen (node :: rest) = (do
      let others ← config.chosen rest
      .ok ((node, config.classify node) :: others)) := by
  simp only [chosen, candidates, List.map_cons, List.filter_cons, classified, decide_false,
    Bool.false_eq_true, ↓reduceIte, ne_eq, not_false_eq_true, decide_true, bind_assoc, pure_bind]
  rfl

/-- Telling nodes apart returns the chosen ones. -/
theorem triage_returns (nodes : List Node) :
    (config.triage nodes).Returns kind (config.chosen nodes) := by
  induction nodes with
  | nil => exact Act.returns_pure []
  | cons node rest ih =>
      rw [triage]
      by_cases excluded : config.classify node = .none
      · rw [excluded, config.chosen_cons_of_excluded excluded]
        exact (Act.returns_ofExcept node.name).bind fun _ _ =>
          (Act.returns_log _ _ _).bind fun _ _ => ih
      · rw [config.chosen_cons_of_classified excluded]
        cases classified : config.classify node with
        | none => exact absurd classified excluded
        | spot => exact ih.bind fun others _ => Act.returns_pure _
        | onDemand => exact ih.bind fun others _ => Act.returns_pure _

/-- Telling nodes apart makes no call. -/
theorem triage_calls (nodes : List Node) : (config.triage nodes).Calls kind [] := by
  induction nodes with
  | nil => exact Act.calls_pure []
  | cons node rest ih =>
      rw [triage]
      cases config.classify node with
      | none =>
          exact (Act.calls_ofExcept node.name).bind_silent fun _ =>
            (Act.calls_log _ _ _).bind_silent fun _ => ih
      | spot => exact ih.bind_silent fun _ => Act.calls_pure _
      | onDemand => exact ih.bind_silent fun _ => Act.calls_pure _

end

end NodeMapConfig

namespace NodeMap

variable {config : NodeMapConfig} {kind : Session → Prop} [SessionKind kind] {lister : PodLister}
  {answer : Node → Except Fault (List Pod)} {asked : Node → List ApiCall}

def outcome (config : NodeMapConfig) (answer : Node → Except Fault (List Pod))
    (nodes : List Node) : Except Fault NodeMap := do
  let entries ← config.chosen nodes
  let infos ← entries.mapM (config.entered answer)
  let _ ← (assemble infos).summary
  return assemble infos

/-- The outcome is a map exactly if all candidates are chosen and entered, and the map of their entries can be
summed up. -/
theorem outcome_eq_ok_iff {nodes : List Node} {map : NodeMap} :
    outcome config answer nodes = .ok map ↔
      config.chosen nodes = .ok (config.candidates nodes) ∧
        ∃ infos, (config.candidates nodes).mapM (config.entered answer) = .ok infos ∧
          assemble infos = map ∧ ∃ text, map.summary = .ok text := by
  constructor
  · intro came
    obtain ⟨entries, chosen, rest⟩ := Outcome.bind_eq_ok_iff.mp came
    obtain ⟨infos, entered, rest⟩ := Outcome.bind_eq_ok_iff.mp rest
    obtain ⟨text, summed, same⟩ := Outcome.bind_eq_ok_iff.mp rest
    obtain rfl := config.candidates_of_chosen chosen
    cases same
    exact ⟨chosen, infos, entered, rfl, text, summed⟩
  · intro parts
    obtain ⟨chosen, infos, entered, rfl, text, summed⟩ := parts
    rw [outcome, chosen, Outcome.ok_bind, entered, Outcome.ok_bind, summed]
    rfl

/-- The task of a node returns its entry. -/
theorem accountTask_returns (answers : ∀ node, (lister node).Returns kind (answer node))
    {entry : Node × NodeClass} (named : ∃ name, entry.1.name = .ok name) :
    (accountTask config lister entry).Returns kind (config.entered answer entry) :=
  (NodeMapConfig.accountReporting_returns answers named entry.2).bind fun _ _ =>
    Act.returns_pure _

theorem accountTask_calls (asks : ∀ node, (lister node).Calls kind (asked node))
    (entry : Node × NodeClass) : (accountTask config lister entry).Calls kind (asked entry.1) :=
  (NodeMapConfig.accountReporting_calls asks entry.1 entry.2).bind_silent fun _ =>
    Act.calls_pure _

private theorem accountTask_yields (entry : Node × NodeClass) :
    (accountTask config lister entry).Yields fun result =>
      result.1 = entry.2 ∧ config.Accounts lister.MayList entry.2 entry.1 result.2 :=
  (NodeMapConfig.accountReporting_yields entry.1 entry.2).bind fun _ accounts =>
    Act.yields_pure ⟨rfl, accounts⟩

/-- The accounts of all chosen nodes, in turn or on a pool. -/
def accountAll (config : NodeMapConfig) (lister : PodLister) (schedule : List PoolMove)
    (entries : List (Node × NodeClass)) : Act (List (NodeClass × NodeInfo)) :=
  if 1 < config.workers ∧ 1 < entries.length then
    Pool.results config.workers schedule (entries.map (accountTask config lister))
  else NodeMapConfig.inTurn (entries.map (accountTask config lister))

/-- A build is a triage, the accounts of the chosen nodes, and a report of the map that they make. -/
theorem build_eq (schedule : List PoolMove) (nodes : List Node) :
    build config lister schedule nodes =
      config.triage nodes >>= fun entries =>
        accountAll config lister schedule entries >>= fun infos =>
          Act.ofExcept (assemble infos).summary >>= fun summary =>
            Act.log .info .nodes s!"Node map built: {summary}" >>= fun _ =>
              pure (assemble infos) := by
  rw [build]
  congr 1
  funext entries
  rw [accountAll]
  split <;> rfl

/-- Accounting nodes, one after the other or on a pool, returns the accounts in the order of the nodes. -/
theorem accountAll_returns (answers : ∀ node, (lister node).Returns kind (answer node))
    (schedule : List PoolMove) {entries : List (Node × NodeClass)}
    (named : ∀ entry ∈ entries, ∃ name, entry.1.name = .ok name) :
    (accountAll config lister schedule entries).Returns kind
      (entries.mapM (config.entered answer)) := by
  rw [accountAll]
  split
  · exact Pool.results_returns _ _ fun entry member => accountTask_returns answers (named entry member)
  · exact NodeMapConfig.inTurn_returns fun entry member =>
      accountTask_returns answers (named entry member)

/-- **One outcome for every schedule.** A build comes to the outcome of its nodes and answers,
whatever the number of workers and the schedule of the pool. -/
theorem build_returns (answers : ∀ node, (lister node).Returns kind (answer node))
    (schedule : List PoolMove) (nodes : List Node) :
    (build config lister schedule nodes).Returns kind (outcome config answer nodes) := by
  rw [build_eq]
  refine (config.triage_returns nodes).bind fun entries came => ?_
  have named : ∀ entry ∈ entries, ∃ name, entry.1.name = .ok name := by
    obtain rfl := config.candidates_of_chosen came
    exact fun entry member => config.named_of_candidates member
  exact (accountAll_returns answers schedule named).bind fun infos _ =>
    (Act.returns_ofExcept _).bind fun summary _ =>
      (Act.returns_log _ _ _).bind fun _ _ => Act.returns_pure _

/-- **What a map is made of.** Whatever the lister, the number of workers and the schedule, a map
that is built is made of a right account of each chosen node. -/
theorem build_yields (schedule : List PoolMove) (nodes : List Node) :
    (build config lister schedule nodes).Yields fun map => ∃ infos,
      List.Forall₂ (fun entry result =>
        result.1 = entry.2 ∧ config.Accounts lister.MayList entry.2 entry.1 result.2)
        (config.candidates nodes) infos ∧ map = assemble infos := by
  rw [build_eq]
  refine (config.triage_returns nodes).yields.bind fun entries chosen => ?_
  obtain rfl := config.candidates_of_chosen chosen
  have all : (accountAll config lister schedule (config.candidates nodes)).Yields
      (List.Forall₂ (fun entry result =>
        result.1 = entry.2 ∧ config.Accounts lister.MayList entry.2 entry.1 result.2)
        (config.candidates nodes)) := by
    rw [accountAll]
    split
    · exact Pool.results_yields _ _ fun entry _ => accountTask_yields entry
    · exact NodeMapConfig.inTurn_yields fun entry _ => accountTask_yields entry
  exact all.bind fun infos accounts => (Act.yields_any _).bind fun _ _ =>
    (Act.yields_any _).bind fun _ _ => Act.yields_pure ⟨infos, accounts, rfl⟩

private theorem accountAll_calls (answers : ∀ node, (lister node).Returns kind (answer node))
    (asks : ∀ node, (lister node).Calls kind (asked node)) (schedule : List PoolMove)
    {entries : List (Node × NodeClass)} {infos : List (NodeClass × NodeInfo)}
    (named : ∀ entry ∈ entries, ∃ name, entry.1.name = .ok name)
    (came : entries.mapM (config.entered answer) = .ok infos) (session : Session)
    (valid : kind session) :
    (accountAll config lister schedule entries session).2.calls.Perm
      (session.calls ++ entries.flatMap fun entry => asked entry.1) := by
  have returns : ∀ entry ∈ entries, (accountTask config lister entry).Returns kind
      (config.entered answer entry) :=
    fun entry member => accountTask_returns answers (named entry member)
  have calls : ∀ entry ∈ entries, (accountTask config lister entry).Calls kind (asked entry.1) :=
    fun entry _ => accountTask_calls asks entry
  have succeed : ∀ entry ∈ entries, ∃ result, config.entered answer entry = .ok result :=
    Outcome.forall_ok_of_mapM came
  rw [accountAll]
  split
  · exact Pool.results_calls _ _ returns calls succeed session valid
  · rw [(NodeMapConfig.inTurn_calls returns calls succeed session valid).1]

/-- A build that succeeds asks once for each chosen node, whatever the schedule. -/
theorem build_calls (answers : ∀ node, (lister node).Returns kind (answer node))
    (asks : ∀ node, (lister node).Calls kind (asked node)) (schedule : List PoolMove)
    {nodes : List Node} {map : NodeMap} (came : outcome config answer nodes = .ok map)
    (session : Session) (valid : kind session) :
    (build config lister schedule nodes session).2.calls.Perm
      (session.calls ++ (config.candidates nodes).flatMap fun entry => asked entry.1) := by
  obtain ⟨chosen, infos, entered, -⟩ := outcome_eq_ok_iff.mp came
  obtain ⟨triaged, kept⟩ := config.triage_returns nodes session valid
  have silent := (config.triage_calls nodes session valid).1
  rw [List.append_nil] at silent
  rcases ended : config.triage nodes session with ⟨result, later⟩
  rw [ended] at triaged kept silent
  obtain rfl : result = .ok (config.candidates nodes) := triaged.trans chosen
  rw [build_eq, Act.bind_of_ok ended, ← silent]
  have named : ∀ entry ∈ config.candidates nodes, ∃ name, entry.1.name = .ok name :=
    fun _ member => config.named_of_candidates member
  have all : (accountAll config lister schedule (config.candidates nodes)).Returns kind
      ((config.candidates nodes).mapM (config.entered answer)) :=
    accountAll_returns answers schedule named
  obtain ⟨accounted, still⟩ := all later kept
  have asking := accountAll_calls answers asks schedule named entered later kept
  rcases ended : accountAll config lister schedule (config.candidates nodes) later with ⟨result, last⟩
  rw [ended] at accounted still asking
  obtain rfl : result = .ok infos := accounted.trans entered
  rw [Act.bind_of_ok ended]
  have finish : (Act.ofExcept (assemble infos).summary >>= fun summary =>
      Act.log .info .nodes s!"Node map built: {summary}" >>= fun _ =>
        pure (assemble infos)).Calls kind [] :=
    (Act.calls_ofExcept _).bind_silent fun _ =>
      (Act.calls_log _ _ _).bind_silent fun _ => Act.calls_pure _
  rw [(finish last still).1, List.append_nil]
  exact asking

end NodeMap

end SpotCapacity
