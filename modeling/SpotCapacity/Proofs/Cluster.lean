import SpotCapacity.Proofs.NodeMap.Arrangement

/-!
# Building the map of a cluster

Whatever a cluster answers and however its calls are delayed, a map that is built of it is one of the
nodes that it lists (`NodeMap.ofCluster_yields`). Where every call is granted, the outcome of a build is
known from the answers alone (`NodeMap.ofCluster_returns_of_throttle`), and so it is without a rate limiter
(`NodeMap.ofCluster_returns`).
-/

namespace SpotCapacity

namespace ClusterApi

variable {api : ClusterApi}

def listedNodes (api : ClusterApi) : Except Fault (List Node) :=
  match api.nodes with
  | .error failure => .error (listingFault .nodes failure)
  | .ok none => .error .absentListCounted
  | .ok (some nodes) => .ok nodes

/-- Nodes are listed exactly if the answer has a list of them. -/
theorem listedNodes_eq_ok_iff {nodes : List Node} :
    api.listedNodes = .ok nodes ↔ api.nodes = .ok (some nodes) := by
  rw [listedNodes]
  rcases api.nodes with failure | _ | listed
  · exact ⟨nofun, nofun⟩
  · exact ⟨nofun, nofun⟩
  · simp only [Except.ok.injEq, Option.some.injEq]

def listedPods (api : ClusterApi) (node : Node) : Except Fault (List Pod) := do
  let name ← node.name
  match api.pods name with
  | .error failure => .error (listingFault (.podsOn name) failure)
  | .ok none => .error .absentListRead
  | .ok (some pods) => .ok pods

private def reportNodes (api : ClusterApi) : Act (List Node) :=
  match api.nodes with
  | .error failure => throw (listingFault .nodes failure)
  | .ok none => throw .absentListCounted
  | .ok (some nodes) => do
    Act.log .debug .cluster s!"Listed {nodes.length} nodes"
    return nodes

private theorem listNodes_eq (api : ClusterApi) :
    api.listNodes = Act.throttle >>= fun _ => Act.note (.called .listNodes) >>= fun _ =>
      (if api.stops then Act.requestStop else pure ()) >>= fun _ =>
        Act.elapse api.latency >>= fun _ => api.reportNodes := by
  rw [listNodes, reportNodes]
  cases api.stops <;> rfl

/-- What listing nodes comes to is what the cluster answers. -/
theorem listNodes_yields (api : ClusterApi) :
    api.listNodes.Yields fun nodes => api.nodes = .ok (some nodes) := by
  have reported : api.reportNodes.Yields fun nodes => api.nodes = .ok (some nodes) := by
    rw [reportNodes]
    split
    · exact Act.yields_throw _
    · exact Act.yields_throw _
    · rename_i nodes listed
      exact (Act.yields_any _).bind fun _ _ => Act.yields_pure listed
  rw [listNodes_eq]
  exact (Act.yields_any _).bind fun _ _ => (Act.yields_any _).bind fun _ _ =>
    (Act.yields_any _).bind fun _ _ => (Act.yields_any _).bind fun _ _ => reported

section

/-! ### Calls that are granted

Sessions of a kind in which every call is granted, and that stay of the kind while a call takes its time.
-/

variable {kind : Session → Prop} [SessionKind kind]
  (granted : Act.throttle.Returns kind (.ok ()))
  (elapses : ∀ session, kind session → kind { session with now := session.now + api.latency })

include granted elapses

/-- Where calls are granted, listing the nodes comes to the answer of the cluster, also when the program
is asked to stop on the way. -/
theorem listNodes_returns_of_throttle
    (stops : api.stops = true → ∀ session, kind session → kind session.requestStop) :
    api.listNodes.Returns kind api.listedNodes := by
  have elapsed : (Act.elapse api.latency).Returns kind (.ok ()) :=
    fun session valid => ⟨rfl, elapses session valid⟩
  have asked : (if api.stops then Act.requestStop else pure ()).Returns kind (.ok ()) := by
    by_cases stopping : api.stops = true
    · rw [if_pos stopping]
      exact fun session valid => ⟨rfl, stops stopping session valid⟩
    · rw [if_neg stopping]
      exact Act.returns_pure ()
  have reported : api.reportNodes.Returns kind api.listedNodes := by
    rw [reportNodes, listedNodes]
    split
    · exact Act.returns_throw _
    · exact Act.returns_throw _
    · exact (Act.returns_log _ _ _).bind_ok (Act.returns_pure _)
  rw [listNodes_eq]
  exact granted.bind_ok ((Act.returns_note _).bind_ok
    (asked.bind_ok (elapsed.bind_ok reported)))

/-- Where calls are granted, listing the pods on a node comes to the answer of the cluster. -/
theorem listPods_returns_of_throttle (node : Node) :
    (api.listPods node).Returns kind (api.listedPods node) := by
  have elapsed : (Act.elapse api.latency).Returns kind (.ok ()) :=
    fun session valid => ⟨rfl, elapses session valid⟩
  rw [listPods, listedPods]
  refine (Act.returns_ofExcept node.name).bind fun name _ => ?_
  refine granted.bind_ok ((Act.returns_note _).bind_ok (elapsed.bind_ok ?_))
  rcases api.pods name with failure | absent | pods
  · exact Act.returns_throw _
  · exact Act.returns_throw _
  · exact Act.returns_pure _

end

end ClusterApi

namespace NodeMap

/-- A map that is built of a cluster has the nodes of a class that the cluster lists. -/
theorem ofCluster_yields (config : NodeMapConfig) (schedule : List PoolMove) (api : ClusterApi) :
    (ofCluster config schedule api).Yields fun map => ∃ nodes, api.nodes = .ok (some nodes) ∧
      ((map.spot ++ map.onDemand).map (·.node)).Perm
        (nodes.filter fun node => config.classify node ≠ .none) := by
  rw [ofCluster]
  refine api.listNodes_yields.bind fun nodes listed => ?_
  intro session map built
  exact ⟨nodes, listed, build_yields_nodes schedule nodes session map built⟩

/-- Where calls are granted, a build comes to what the answers of the cluster come to. -/
theorem ofCluster_returns_of_throttle {kind : Session → Prop} [SessionKind kind] {api : ClusterApi}
    (granted : Act.throttle.Returns kind (.ok ()))
    (elapses : ∀ session, kind session → kind { session with now := session.now + api.latency })
    (stops : api.stops = true → ∀ session, kind session → kind session.requestStop)
    (config : NodeMapConfig) (schedule : List PoolMove) :
    (ofCluster config schedule api).Returns kind
      (api.listedNodes >>= outcome config api.listedPods) := by
  rw [ofCluster]
  apply (api.listNodes_returns_of_throttle granted elapses stops).bind
  intro nodes _
  exact build_returns (api.listPods_returns_of_throttle granted elapses) schedule nodes

end NodeMap

section

/-! ### Sessions without a limiter

Sessions of a kind that have no rate limiter, and that stay of the kind while a call takes its time.
-/

variable {kind : Session → Prop} [SessionKind kind]
  (unlimited : ∀ session, kind session → session.limiter = none) {api : ClusterApi}
  (elapses : ∀ session, kind session → kind { session with now := session.now + api.latency })

include unlimited

omit [SessionKind kind] in
private theorem Act.returns_throttle : Act.throttle.Returns kind (.ok ()) := by
  intro session valid
  have read : (get : Act Session) session = (.ok session, session) := rfl
  have unthrottled : Act.throttle session = (.ok (), session) := by
    rw [Act.throttle, Act.bind_of_ok read, unlimited session valid]
    rfl
  rw [unthrottled]
  exact ⟨rfl, valid⟩

include elapses

/-- Listing pods ends as the cluster answers. -/
theorem ClusterApi.listPods_returns (node : Node) :
    (api.listPods node).Returns kind (api.listedPods node) :=
  listPods_returns_of_throttle (Act.returns_throttle unlimited) elapses node

/-- Without a limiter, a build comes to what the answers of the cluster come to. -/
theorem NodeMap.ofCluster_returns (proceeds : api.stops = false) (config : NodeMapConfig)
    (schedule : List PoolMove) :
    (ofCluster config schedule api).Returns kind
      (api.listedNodes >>= outcome config api.listedPods) := by
  apply ofCluster_returns_of_throttle (Act.returns_throttle unlimited) elapses
  intro stopping
  rw [proceeds] at stopping
  cases stopping

end

end SpotCapacity
