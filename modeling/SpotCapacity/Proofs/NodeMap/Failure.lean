import SpotCapacity.Proofs.Admission
import SpotCapacity.Proofs.NodeMap.Schedule

/-!
# How a build fails

The ways in which a node of a class cannot be accounted, in the order in which they are found
(`NodeMapConfig.Fails`): its pods cannot be listed, a pod that does not count cannot be reported, for want
of metadata or because a number in its report is too long to be written, a pod that counts cannot be
counted, or what the node offers cannot be read. A build in turn ends at the first such node
with its fault, and lists the pods on the nodes of a class up to it and on no other
(`NodeMap.build_ends_at_first_failure`).
-/

namespace SpotCapacity

/-- The name by which the pods on a node are listed. -/
def Node.knownName (node : Node) : Option String := node.metadata.bind (·.name)

/-- A node with metadata has the name that is known of it. -/
theorem Node.name_of_metadata {node : Node} (present : node.metadata ≠ none) :
    node.name = .ok node.knownName := by
  obtain ⟨metadata, same⟩ := Option.ne_none_iff_exists'.mp present
  rw [name, knownName, same]
  rfl

/-- The call that lists the pods on a node. -/
def Node.podCall (node : Node) : ApiCall := .listPods node.knownName

namespace NodeMapConfig

/-- A pod that does not count can be reported: it has metadata, and the two numbers by which it does not
count are short enough to be written. -/
structure Reports (config : NodeMapConfig) (pod : Pod) : Prop where
  present : pod.metadata ≠ none
  priority : Text.isWritable pod.priority = true
  threshold : Text.isWritable config.threshold = true

/-- A node cannot be accounted on a cluster, and with which fault. A listing that the API client reports as
failed is a query that failed on the node; what fails in another way is passed on. -/
inductive Fails (config : NodeMapConfig) (api : ClusterApi) (node : Node) : Fault → Prop where
  | refused {failure : ApiFailure} (answered : api.pods node.knownName = .error failure)
      (reported : failure.isReported = true) :
      Fails config api node (.query (.podsOn node.knownName) failure)
  | foreign {failure : ApiFailure} (answered : api.pods node.knownName = .error failure)
      (unreported : failure.isReported = false) : Fails config api node (.api failure)
  | noList (answered : api.pods node.knownName = .ok none) :
      Fails config api node .absentListRead
  | nameless {pods before after : List Pod} {pod : Pod}
      (answered : api.pods node.knownName = .ok (some pods))
      (place : config.ignored (config.classify node) pods = before ++ pod :: after)
      (earlier : ∀ other ∈ before, config.Reports other) (absent : pod.metadata = none) :
      Fails config api node (.noMember .null "namespace")
  | unwritable {pods before after : List Pod} {pod : Pod}
      (answered : api.pods node.knownName = .ok (some pods))
      (place : config.ignored (config.classify node) pods = before ++ pod :: after)
      (earlier : ∀ other ∈ before, config.Reports other) (present : pod.metadata ≠ none)
      (long : ¬ (Text.isWritable pod.priority = true ∧ Text.isWritable config.threshold = true)) :
      Fails config api node .integerTooLong
  | uncountable {pods before after : List Pod} {pod : Pod} {fault : Fault}
      (answered : api.pods node.knownName = .ok (some pods))
      (reports : ∀ pod ∈ config.ignored (config.classify node) pods, config.Reports pod)
      (place : config.counting (config.classify node) pods = before ++ pod :: after)
      (earlier : ∀ other ∈ before, other.Countable) (failed : pod.cpuRequest = .error fault) :
      Fails config api node fault
  | unallocatable {pods : List Pod} {fault : Fault}
      (answered : api.pods node.knownName = .ok (some pods))
      (reports : ∀ pod ∈ config.ignored (config.classify node) pods, config.Reports pod)
      (countable : ∀ pod ∈ config.counting (config.classify node) pods, pod.Countable)
      (failed : node.allocatableCpu = .error fault) : Fails config api node fault

variable {config : NodeMapConfig} {api : ClusterApi} {node : Node} {pods : List Pod} {fault : Fault}

/-- The report of a pod on a node with a name fails for want of metadata, or because one of its numbers is
too long. -/
theorem reportable_eq (named : node.name = .ok node.knownName) (pod : Pod) :
    config.reportable node pod =
      if pod.metadata = none then .error (.noMember .null "namespace")
      else if Text.isWritable pod.priority = true ∧ Text.isWritable config.threshold = true then .ok ()
      else .error .integerTooLong := by
  rw [reportable, named, Pod.key]
  cases pod.metadata with
  | none => rfl
  | some metadata =>
      cases priority : Text.isWritable pod.priority with
      | false =>
          rw [integerText_of_long priority]
          rfl
      | true =>
          cases threshold : Text.isWritable config.threshold with
          | false =>
              rw [integerText_of_short priority, integerText_of_long threshold]
              rfl
          | true =>
              rw [integerText_of_short priority, integerText_of_short threshold]
              rfl

private theorem reportable_ok_iff (named : node.name = .ok node.knownName) (pod : Pod) :
    (∃ value, config.reportable node pod = .ok value) ↔ config.Reports pod := by
  rw [reportable_eq named]
  constructor
  · rintro ⟨value, reported⟩
    split_ifs at reported with absent short
    exact ⟨absent, short.1, short.2⟩
  · intro reports
    rw [if_neg reports.present, if_pos ⟨reports.priority, reports.threshold⟩]
    exact ⟨(), rfl⟩

/-- The pods that count are kept, if each of the others can be reported. -/
theorem retained_ok_iff (named : node.name = .ok node.knownName) {nodeClass : NodeClass}
    {kept : List Pod} :
    config.retained node nodeClass pods = .ok kept ↔
      (∀ pod ∈ config.ignored nodeClass pods, config.Reports pod) ∧
        kept = config.counting nodeClass pods := by
  constructor
  · intro came
    obtain ⟨values, reported, -⟩ := Outcome.bind_eq_ok_iff.mp came
    exact ⟨fun pod member => (reportable_ok_iff named pod).mp
      (Outcome.forall_ok_of_mapM reported pod member), config.counting_of_retained came⟩
  · rintro ⟨reports, rfl⟩
    obtain ⟨values, reported⟩ := Outcome.mapM_of_forall_ok fun pod member =>
      (reportable_ok_iff named pod).mpr (reports pod member)
    rw [retained, reported, Outcome.ok_bind]
    rfl

/-- Leaving out pods fails with the first of them that cannot be reported. -/
theorem retained_error_iff (named : node.name = .ok node.knownName) {nodeClass : NodeClass} :
    config.retained node nodeClass pods = .error fault ↔
      ∃ before pod after, config.ignored nodeClass pods = before ++ pod :: after ∧
        (∀ other ∈ before, config.Reports other) ∧ config.reportable node pod = .error fault := by
  simp only [retained, Outcome.bind_eq_error_iff, Outcome.mapM_eq_error_iff, reportable_ok_iff named]
  apply or_iff_left
  rintro ⟨values, -, kept⟩
  cases kept

/-- Pods that can be ordered can be counted, so that only what the node offers is left to fail. -/
theorem ofPods_error_iff {sorted : List Pod} (ordered : sortByCpu pods = .ok sorted) :
    NodeInfo.ofPods node sorted = .error fault ↔ node.allocatableCpu = .error fault := by
  have countable : ∀ pod ∈ sorted, pod.Countable := fun pod member =>
    (sortByCpu_eq_ok_iff.mp ordered).1 pod ((sortByCpu_stablyOrdered ordered).perm.mem_iff.mp member)
  have summed : requestedCpu sorted = .ok (sorted.map Pod.cpu).sum :=
    requestedCpu_eq_ok_iff.mpr ⟨countable, rfl⟩
  rw [NodeInfo.ofPods, NodeInfo.count, summed, Outcome.ok_bind]
  cases node.allocatableCpu with
  | error other => simp only [Outcome.error_bind, Except.error.injEq]
  | ok allocatable => simp only [Outcome.ok_bind, pure, Except.pure, reduceCtorEq]

/-- Listing pods fails with what the cluster answers, or because there is no list in the answer. -/
theorem listedPods_error_iff (named : node.name = .ok node.knownName) :
    api.listedPods node = .error fault ↔
      (∃ failure, api.pods node.knownName = .error failure ∧
        fault = ClusterApi.listingFault (.podsOn node.knownName) failure) ∨
      (api.pods node.knownName = .ok none ∧ fault = .absentListRead) := by
  rw [ClusterApi.listedPods, named, Outcome.ok_bind]
  rcases api.pods node.knownName with failure | _ | pods
  · simp [eq_comm]
  · simp [eq_comm]
  · simp

private theorem listedPods_ok_iff (named : node.name = .ok node.knownName) :
    api.listedPods node = .ok pods ↔ api.pods node.knownName = .ok (some pods) := by
  rw [ClusterApi.listedPods, named, Outcome.ok_bind]
  rcases api.pods node.knownName with failure | _ | listed <;> simp

/-- A node that cannot be accounted fails in one of these ways. -/
theorem Fails.of_accounted (present : node.metadata ≠ none)
    (failed : config.accounted api.listedPods node (config.classify node) = .error fault) :
    config.Fails api node fault := by
  have named := Node.name_of_metadata present
  rw [accounted] at failed
  rcases Outcome.bind_eq_error_iff.mp failed with unlisted | ⟨pods, listed, failed⟩
  · rcases (listedPods_error_iff named).mp unlisted with ⟨failure, answered, rfl⟩ | ⟨answered, rfl⟩
    · rw [ClusterApi.listingFault]
      split
      · rename_i reported
        exact .refused answered reported
      · rename_i unreported
        exact .foreign answered (Bool.eq_false_iff.mpr unreported)
    · exact .noList answered
  have answered := (listedPods_ok_iff named).mp listed
  rcases Outcome.bind_eq_error_iff.mp failed with unreported | ⟨kept, retained, failed⟩
  · obtain ⟨before, pod, after, place, earlier, failed⟩ := (retained_error_iff named).mp unreported
    rw [reportable_eq named] at failed
    split_ifs at failed with absent short
    · cases failed
      exact .nameless answered place earlier absent
    · cases failed
      exact .unwritable answered place earlier absent short
  · obtain ⟨reports, rfl⟩ := (retained_ok_iff named).mp retained
    rcases Outcome.bind_eq_error_iff.mp failed with unordered | ⟨sorted, ordered, uncounted⟩
    · obtain ⟨before, pod, after, place, earlier, failed⟩ := sortByCpu_eq_error_iff.mp unordered
      exact .uncountable answered reports place earlier failed
    · exact .unallocatable answered reports (sortByCpu_eq_ok_iff.mp ordered).1
        ((ofPods_error_iff ordered).mp uncounted)

/-- A node that fails in one of these ways cannot be accounted. -/
theorem Fails.accounted (present : node.metadata ≠ none) (fails : config.Fails api node fault) :
    config.accounted api.listedPods node (config.classify node) = .error fault := by
  have named := Node.name_of_metadata present
  rw [NodeMapConfig.accounted, Outcome.bind_eq_error_iff]
  cases fails with
  | refused answered reported =>
      refine .inl ((listedPods_error_iff named).mpr (.inl ⟨_, answered, ?_⟩))
      rw [ClusterApi.listingFault, if_pos reported]
  | foreign answered unreported =>
      refine .inl ((listedPods_error_iff named).mpr (.inl ⟨_, answered, ?_⟩))
      rw [ClusterApi.listingFault, if_neg (Bool.eq_false_iff.mp unreported)]
  | noList answered => exact .inl ((listedPods_error_iff named).mpr (.inr ⟨answered, rfl⟩))
  | nameless answered place earlier absent =>
      refine .inr ⟨_, (listedPods_ok_iff named).mpr answered, Outcome.bind_eq_error_iff.mpr (.inl ?_)⟩
      refine (retained_error_iff named).mpr ⟨_, _, _, place, earlier, ?_⟩
      rw [reportable_eq named, if_pos absent]
  | unwritable answered place earlier present long =>
      refine .inr ⟨_, (listedPods_ok_iff named).mpr answered, Outcome.bind_eq_error_iff.mpr (.inl ?_)⟩
      refine (retained_error_iff named).mpr ⟨_, _, _, place, earlier, ?_⟩
      rw [reportable_eq named, if_neg present, if_neg long]
  | uncountable answered reports place earlier failed =>
      refine .inr ⟨_, (listedPods_ok_iff named).mpr answered, ?_⟩
      rw [(retained_ok_iff named).mpr ⟨reports, rfl⟩, Outcome.ok_bind, Outcome.bind_eq_error_iff]
      exact .inl (sortByCpu_eq_error_iff.mpr ⟨_, _, _, place, earlier, failed⟩)
  | unallocatable answered reports countable failed =>
      refine .inr ⟨_, (listedPods_ok_iff named).mpr answered, ?_⟩
      have ordered := sortByCpu_eq_ok_iff.mpr ⟨countable, rfl⟩
      rw [(retained_ok_iff named).mpr ⟨reports, rfl⟩, Outcome.ok_bind, ordered, Outcome.ok_bind]
      exact (ofPods_error_iff ordered).mpr failed

/-- **Why a node cannot be accounted.** -/
theorem accounted_error_iff (present : node.metadata ≠ none) :
    config.accounted api.listedPods node (config.classify node) = .error fault ↔
      config.Fails api node fault :=
  ⟨.of_accounted present, fun fails => fails.accounted present⟩

/-- Accounting a node fails with what is wrong with it. -/
theorem account_error_iff (present : node.metadata ≠ none) {session : Session}
    (admits : session.Admits) :
    (config.account api.listPods node (config.classify node) session).1 = .error fault ↔
      config.Fails api node fault := by
  rw [← accounted_error_iff present,
    (account_returns (Session.Admits.listPods_returns api) node (config.classify node) session admits).1]

/-- The nodes of a class, in the order of the list. -/
def classified (config : NodeMapConfig) (nodes : List Node) : List Node :=
  nodes.filter fun node => config.classify node ≠ .none

/-- Nodes with their classes. -/
def tagged (config : NodeMapConfig) (nodes : List Node) : List (Node × NodeClass) :=
  nodes.map fun node => (node, config.classify node)

private theorem candidates_eq (nodes : List Node) :
    config.candidates nodes = config.tagged (config.classified nodes) := by
  rw [candidates, List.filter_map, classified]
  rfl

private theorem chosen_of_present {nodes : List Node} (present : ∀ node ∈ nodes, node.metadata ≠ none) :
    config.chosen nodes = .ok (config.tagged (config.classified nodes)) := by
  rw [← candidates_eq]
  exact chosen_of_named fun node member _ => ⟨_, Node.name_of_metadata (present node member)⟩

private theorem tagged_podCalls (config : NodeMapConfig) {nodes : List Node}
    (present : ∀ node ∈ nodes, node.metadata ≠ none) :
    ((config.tagged nodes).flatMap fun entry => entry.1.podCalls) = nodes.map Node.podCall := by
  rw [tagged, List.flatMap_map]
  induction nodes with
  | nil => rfl
  | cons node rest ih =>
      obtain ⟨here, others⟩ := List.forall_mem_cons.mp present
      rw [List.flatMap_cons, List.map_cons, ih others, Node.podCalls, Node.name_of_metadata here]
      rfl

private theorem entered_of_sound (present : node.metadata ≠ none)
    (sound : ∀ fault, ¬ config.Fails api node fault) :
    ∃ result, config.entered api.listedPods (node, config.classify node) = .ok result := by
  rw [entered]
  rcases came : config.accounted api.listedPods node (config.classify node) with fault | info
  · exact absurd ((accounted_error_iff present).mp came) (sound fault)
  · exact ⟨_, rfl⟩

private theorem entered_of_fails (present : node.metadata ≠ none) (fails : config.Fails api node fault) :
    config.entered api.listedPods (node, config.classify node) = .error fault := by
  rw [entered, (accounted_error_iff present).mpr fails, Outcome.error_bind]

private theorem tagged_entered {nodes : List Node} (present : ∀ node ∈ nodes, node.metadata ≠ none)
    (sound : ∀ node ∈ nodes, ∀ fault, ¬ config.Fails api node fault) :
    ∀ entry ∈ config.tagged nodes, ∃ result, config.entered api.listedPods entry = .ok result := by
  intro entry member
  obtain ⟨node, listed, rfl⟩ := List.mem_map.mp member
  exact entered_of_sound (present node listed) (sound node listed)

private theorem mapM_entered_of_fails {before after : List Node}
    (present : ∀ other ∈ before ++ [node], other.metadata ≠ none)
    (earlier : ∀ other ∈ before, ∀ fault, ¬ config.Fails api other fault)
    (fails : config.Fails api node fault) :
    (config.tagged (before ++ node :: after)).mapM (config.entered api.listedPods) = .error fault := by
  obtain ⟨presentBefore, presentNode⟩ := List.forall_mem_append.mp present
  rw [tagged, List.map_append, List.map_cons]
  exact Outcome.mapM_eq_error (tagged_entered presentBefore earlier)
    (entered_of_fails (presentNode node (List.mem_singleton_self node)) fails)

/-- A node that is entered has been accounted. -/
theorem entered_eq_ok {nodeClass : NodeClass} {answer : Node → Except Fault (List Pod)}
    {result : NodeClass × NodeInfo} (came : config.entered answer (node, nodeClass) = .ok result) :
    result.1 = nodeClass ∧ config.accounted answer node nodeClass = .ok result.2 := by
  obtain ⟨info, accounted, same⟩ := Outcome.bind_eq_ok_iff.mp came
  cases same
  exact ⟨rfl, accounted⟩

end NodeMapConfig

namespace NodeMap

/-- The three totals of a map are short enough to be written. -/
def Printable (map : NodeMap) : Prop :=
  Text.isWritable (totalRequestedCpu map.spot) = true ∧
    Text.isWritable (totalRequestedCpu map.onDemand) = true ∧
    Text.isWritable (totalFreeCpu map.onDemand) = true

/-- A map whose totals can be written can be summed up. -/
theorem Printable.summary {map : NodeMap} (printable : map.Printable) :
    ∃ text, map.summary = .ok text := by
  obtain ⟨spotRequested, requested, free⟩ := printable
  rw [NodeMap.summary, integerText_of_short spotRequested, integerText_of_short requested,
    integerText_of_short free]
  exact ⟨_, rfl⟩

section

variable {config : NodeMapConfig} {api : ClusterApi} {nodes before after : List Node} {node : Node}
  {fault : Fault} {schedule : List PoolMove}

private theorem accountTask_admitted (present : ∀ node ∈ nodes, node.metadata ≠ none) :
    ∀ entry ∈ config.tagged nodes, (accountTask config api.listPods entry).Returns Session.Admits
      (config.entered api.listedPods entry) := by
  intro entry member
  obtain ⟨node, listed, rfl⟩ := List.mem_map.mp member
  exact accountTask_returns (Session.Admits.listPods_returns api)
    ⟨_, Node.name_of_metadata (present node listed)⟩

private theorem accountAll_of_single (single : config.workers ≤ 1) (entries : List (Node × NodeClass)) :
    accountAll config api.listPods schedule entries =
      NodeMapConfig.inTurn (entries.map (accountTask config api.listPods)) :=
  if_neg fun both => absurd both.1 (not_lt.mpr single)

/-- Accounts in turn list the pods on the nodes up to the first one that fails. -/
theorem accountAll_calls_until (single : config.workers ≤ 1)
    (present : ∀ other ∈ before ++ [node], other.metadata ≠ none)
    (earlier : ∀ other ∈ before, ∀ fault, ¬ config.Fails api other fault)
    (fails : config.Fails api node fault) :
    (accountAll config api.listPods schedule (config.tagged (before ++ node :: after))).Calls
      Session.Admits ((before ++ [node]).map Node.podCall) := by
  obtain ⟨presentBefore, presentNode⟩ := List.forall_mem_append.mp present
  have here := presentNode node (List.mem_singleton_self node)
  have failed : (accountTask config api.listPods (node, config.classify node)).Returns Session.Admits
      (.error fault) := NodeMapConfig.entered_of_fails here fails ▸
    accountTask_returns (Session.Admits.listPods_returns api) ⟨_, Node.name_of_metadata here⟩
  have split : config.tagged (before ++ node :: after) =
      config.tagged before ++ (node, config.classify node) :: config.tagged after := List.map_append
  have upTo : config.tagged (before ++ [node]) =
      config.tagged before ++ [(node, config.classify node)] := List.map_append
  rw [accountAll_of_single single, ← NodeMapConfig.tagged_podCalls config present, split, upTo]
  exact NodeMapConfig.inTurn_calls_until (accountTask_admitted presentBefore)
    (fun entry _ => accountTask_calls (Session.Admits.listPods_calls api) entry)
    (NodeMapConfig.tagged_entered presentBefore earlier) failed

private theorem accountAll_calls_all (single : config.workers ≤ 1)
    (present : ∀ node ∈ nodes, node.metadata ≠ none)
    (sound : ∀ node ∈ nodes, ∀ fault, ¬ config.Fails api node fault) :
    (accountAll config api.listPods schedule (config.tagged nodes)).Calls Session.Admits
      (nodes.map Node.podCall) := by
  rw [accountAll_of_single single, ← NodeMapConfig.tagged_podCalls config present]
  exact NodeMapConfig.inTurn_calls (accountTask_admitted present)
    (fun entry _ => accountTask_calls (Session.Admits.listPods_calls api) entry)
    (NodeMapConfig.tagged_entered present sound)

/-- What a build calls is what its accounts call. -/
theorem build_calls_of_accounts (present : ∀ node ∈ nodes, node.metadata ≠ none)
    {calls : List ApiCall}
    (made : (accountAll config api.listPods schedule
      (config.tagged (config.classified nodes))).Calls Session.Admits calls) :
    (build config api.listPods schedule nodes).Calls Session.Admits calls := by
  have triaged : (config.triage nodes).Returns Session.Admits
      (.ok (config.tagged (config.classified nodes))) :=
    NodeMapConfig.chosen_of_present present ▸ config.triage_returns nodes
  rw [build_eq]
  exact (config.triage_calls nodes).bind triaged (made.bind_silent fun infos =>
    (Act.calls_ofExcept _).bind_silent fun summary =>
      (Act.calls_log _ _ _).bind_silent fun _ => Act.calls_pure _)

end

/-- **A build ends at its first failure.** Let a build take its nodes in turn, all of them with metadata,
in a session that admits calls, and let the nodes of a class be listed in their order. If one of them fails
and none before it, the build ends with its fault and lists the pods on the nodes up to it, once each and in
this order. If none fails, the pods on all of them are listed, and the map of their accounts is built if its
totals can be written. The pods on other nodes are never listed. -/
theorem build_ends_at_first_failure {config : NodeMapConfig} {nodes : List Node} {session : Session}
    (single : config.workers ≤ 1) (present : ∀ node ∈ nodes, node.metadata ≠ none)
    (admits : session.Admits) (api : ClusterApi) (schedule : List PoolMove) :
    let ended := build config api.listPods schedule nodes session
    let classified := config.classified nodes
    (∀ node ∈ classified, ∀ fault,
      (config.account api.listPods node (config.classify node) session).1 = .error fault ↔
        config.Fails api node fault) ∧
    (∀ before node after fault, classified = before ++ node :: after →
      (∀ other ∈ before, ∀ fault, ¬ config.Fails api other fault) → config.Fails api node fault →
        ended.1 = .error fault ∧
          ended.2.calls = session.calls ++ (before ++ [node]).map Node.podCall) ∧
    ((∀ node ∈ classified, ∀ fault, ¬ config.Fails api node fault) →
      ended.2.calls = session.calls ++ classified.map Node.podCall ∧
      ∃ infos, List.Forall₂ (fun node info => info.1 = config.classify node ∧
          (config.account api.listPods node (config.classify node) session).1 = .ok info.2)
          classified infos ∧
        ((assemble infos).Printable → ended.1 = .ok (assemble infos))) := by
  intro ended classified
  have presentClassified : ∀ node ∈ classified, node.metadata ≠ none := fun node member =>
    present node (List.mem_of_mem_filter member)
  have comes : ended.1 = outcome config api.listedPods nodes :=
    (build_returns (Session.Admits.listPods_returns api) schedule nodes session admits).1
  rw [outcome, NodeMapConfig.chosen_of_present present, Outcome.ok_bind] at comes
  refine ⟨fun node member fault => ?_, ?_, ?_⟩
  · exact NodeMapConfig.account_error_iff (presentClassified node member) admits
  · intro before node after fault (place : config.classified nodes = _) earlier fails
    have presentUntil : ∀ other ∈ before ++ [node], other.metadata ≠ none := fun other member =>
      presentClassified other (by
        change other ∈ config.classified nodes
        rw [place, List.append_cons]
        exact List.mem_append_left _ member)
    have calls : (accountAll config api.listPods schedule
        (config.tagged (config.classified nodes))).Calls Session.Admits
          ((before ++ [node]).map Node.podCall) := by
      rw [place]
      exact accountAll_calls_until single presentUntil earlier fails
    refine ⟨?_, ((build_calls_of_accounts present calls) session admits).1⟩
    rw [comes, place, NodeMapConfig.mapM_entered_of_fails presentUntil earlier fails,
      Outcome.error_bind]
  · intro sound
    have calls : (accountAll config api.listPods schedule
        (config.tagged (config.classified nodes))).Calls Session.Admits
          ((config.classified nodes).map Node.podCall) :=
      accountAll_calls_all single presentClassified sound
    refine ⟨((build_calls_of_accounts present calls) session admits).1, ?_⟩
    obtain ⟨infos, came⟩ :=
      Outcome.mapM_of_forall_ok (NodeMapConfig.tagged_entered presentClassified sound)
    refine ⟨infos, ?_, fun printable => ?_⟩
    · have each := List.forall₂_map_left_iff.mp (Outcome.mapM_eq_ok_iff.mp came)
      refine each.imp fun node result entered => ?_
      obtain ⟨same, accounted⟩ := NodeMapConfig.entered_eq_ok entered
      exact ⟨same, (NodeMapConfig.account_returns (Session.Admits.listPods_returns api) node _
        session admits).1.trans accounted⟩
    · obtain ⟨text, summed⟩ := printable.summary
      rw [comes, came, Outcome.ok_bind, summed]
      rfl

end NodeMap

/-! ## Two failures in turn

In the small fleet, a pod on the on-demand node cannot be counted and the pods on the spot node behind
it cannot be listed. The second failure is never found.
-/

namespace SmallFleet

def faultyPods : Option String → Except ApiFailure (Option (List Pod))
  | some "busy" => .error (.retries none)
  | some "stable" => .ok (some [small, unreadable])
  | _ => .ok (some [])

def faultyApi : ClusterApi := ⟨.ok (some nodes), faultyPods, 0, false⟩

private theorem idle_sound (fault : Fault) : ¬ NodeMapConfig.standard.Fails faultyApi idle fault := by
  have offered : idle.allocatableCpu = .ok 4000 := by decide +kernel
  have accounted : NodeMapConfig.standard.accounted faultyApi.listedPods idle
      (NodeMapConfig.standard.classify idle) = .ok ⟨idle, [], 0, 4000⟩ :=
    NodeMapConfig.accounted_of_no_pods rfl offered
  rw [← NodeMapConfig.accounted_error_iff (Option.some_ne_none _), accounted]
  exact nofun

private theorem stable_fails :
    NodeMapConfig.standard.Fails faultyApi stable (.quantity (.numberFormat "1x")) := by
  have readable : small.cpuRequest = .ok 100 := by decide +kernel
  have failed : unreadable.cpuRequest = .error (.quantity (.numberFormat "1x")) := by
    decide +kernel
  have onDemand : NodeMapConfig.standard.classify stable = .onDemand := by decide +kernel
  have place : NodeMapConfig.standard.counting (NodeMapConfig.standard.classify stable)
      [small, unreadable] = [small] ++ unreadable :: [] := by
    rw [onDemand]
    rfl
  refine .uncountable rfl ?_ place ?_ failed
  · rw [onDemand]
    exact List.forall_mem_nil _
  · intro other member
    cases List.mem_singleton.mp member
    exact Pod.countable_of_cpuRequest readable

end SmallFleet

/-- With a limiter of one call at a time, the pods on the idle and the stable node are listed, and the
fault of the latter is that of the build. -/
theorem NodeMap.build_ends_at_first_failure_smallFleet :
    let session := Session.start 0 (some (.new 1 (.span (.finite 1)) false))
    let ended := build .standard SmallFleet.faultyApi.listPods [] SmallFleet.nodes session
    ended.1 = .error (.quantity (.numberFormat "1x")) ∧
      ended.2.calls = [.listPods (some "idle"), .listPods (some "stable")] := by
  intro session ended
  have admits : session.Admits := by
    rintro limiter ⟨⟩
    exact ⟨by decide, fun elapsed => ⟨_, rfl⟩⟩
  have present : ∀ node ∈ SmallFleet.nodes, node.metadata ≠ none := by
    simp only [SmallFleet.nodes, List.forall_mem_cons]
    exact ⟨nofun, nofun, nofun, nofun, List.forall_mem_nil _⟩
  have classified : NodeMapConfig.standard.classified SmallFleet.nodes =
      [SmallFleet.idle] ++ SmallFleet.stable :: [SmallFleet.busy] := rfl
  exact (build_ends_at_first_failure (by decide) present admits SmallFleet.faultyApi []).2.1 _ _ _ _
    classified (List.forall_mem_singleton.mpr SmallFleet.idle_sound) SmallFleet.stable_fails

end SpotCapacity
