import SpotCapacity.Proofs.Cluster
import SpotCapacity.Proofs.RateLimit

/-!
# Sessions that admit calls

A limiter that admits a call at all, and whose window the clock can show, grants every call, at once or
after a sleep (`Limiter.Admits.acquire`). In a session without a limiter or with such a one, listing the
pods on a node makes its one call and comes to the answer of the cluster
(`Session.Admits.listPods_returns`, `Session.Admits.listPods_calls`). There a build of a map comes to what
the answers of the cluster come to (`Session.Admits.ofCluster_returns`).
-/

namespace SpotCapacity

namespace Limiter

variable {τ : Type} [Sub τ] [LT τ] [DecidableLT τ] [Zero τ] [Clock τ]

omit [LT τ] [DecidableLT τ] [Zero τ] in
/-- A limiter that grants every call. -/
structure Admits (limiter : Limiter τ) : Prop where
  limits : 0 < limiter.maxCalls
  shows : ∀ elapsed, ∃ left, limiter.window.rest elapsed = .ok left

omit [LT τ] [DecidableLT τ] [Zero τ] in
/-- A limiter of at least one call in a span that the clock shows grants every call. -/
theorem admits_new {maxCalls : Int} (limits : 0 < maxCalls) (length : τ) (reports : Bool) :
    (new maxCalls (.span length) reports).Admits :=
  ⟨limits, fun elapsed => ⟨length - elapsed, rfl⟩⟩

/-- A limiter that admits requests tells how long to wait. -/
theorem Admits.delay? {limiter : Limiter τ} (admits : limiter.Admits) (now : τ) :
    ∃ delay, limiter.delay? now = .ok delay := by
  rw [Limiter.delay?]
  by_cases room : (limiter.calls.length : Int) < limiter.maxCalls
  · exact ⟨none, if_pos room⟩
  · rw [if_neg room]
    cases kept : limiter.calls with
    | nil =>
        have limits := admits.limits
        rw [kept, List.length_nil] at room
        omega
    | cons first rest =>
        rw [oldest?]
        obtain ⟨left, shown⟩ := admits.shows
          (now - rest.foldl (fun least time => if time < least then time else least) first)
        dsimp only
        rw [shown]
        exact ⟨_, rfl⟩

/-- A limiter that admits requests grants the next one, and still admits requests after it. -/
theorem Admits.acquire {limiter : Limiter τ} (admits : limiter.Admits) (now : τ) (wake : τ → τ) :
    ∃ grant, limiter.acquire now wake = .ok grant ∧ grant.limiter.Admits := by
  have pruned : (limiter.prune now).Admits := ⟨admits.limits, admits.shows⟩
  obtain ⟨delay, found⟩ := pruned.delay? now
  rw [Limiter.acquire, found, Outcome.ok_bind]
  cases delay with
  | none => exact ⟨_, rfl, admits.limits, admits.shows⟩
  | some delay => exact ⟨_, rfl, admits.limits, admits.shows⟩

end Limiter

/-- The calls that list the pods on a node: one, unless the node has no name to ask for. -/
def Node.podCalls (node : Node) : List ApiCall :=
  match node.name with
  | .ok name => [.listPods name]
  | .error _ => []

/-- A session without a limiter, or with one that grants every call. -/
def Session.Admits (session : Session) : Prop :=
  ∀ limiter, session.limiter = some limiter → limiter.Admits

instance : SessionKind Session.Admits := ⟨fun _ admits => admits⟩

namespace Session.Admits

variable {session : Session}

private theorem throttle_calls (admits : session.Admits) :
    (Act.throttle session).2.calls = session.calls := by
  cases limited : session.limiter with
  | none =>
      have read : (get : Act Session) session = (.ok session, session) := rfl
      rw [Act.throttle, Act.bind_of_ok read, limited]
      rfl
  | some limiter =>
      obtain ⟨grant, acquired, -⟩ := (admits limiter limited).acquire session.now
        fun delay => session.now + (delay + session.oversleep)
      obtain ⟨records, trace⟩ := Act.throttle_trace limited acquired
      unfold Session.calls
      rw [trace]
      simp only [List.filterMap_append, List.filterMap_map]
      cases limiter.reports <;> cases grant.delay <;> simp

private theorem throttle_admits (admits : session.Admits) :
    (Act.throttle session).1 = .ok () ∧ (Act.throttle session).2.Admits := by
  have read : (get : Act Session) session = (.ok session, session) := rfl
  rw [Act.throttle, Act.bind_of_ok read]
  cases limited : session.limiter with
  | none => exact ⟨rfl, admits⟩
  | some limiter =>
      obtain ⟨grant, acquired, still⟩ := (admits limiter limited).acquire session.now
        fun delay => session.now + (delay + session.oversleep)
      have pruned : Act.change (fun session =>
          { session with limiter := some (limiter.prune session.now) }) session =
            (.ok (), { session with limiter := some (limiter.prune session.now) }) := rfl
      have left : ∀ other : Limiter Double, some grant.limiter = some other → other.Admits :=
        fun other same => Option.some.inj same ▸ still
      dsimp only
      rw [Act.bind_of_ok pruned, acquired]
      dsimp only
      cases grant.delay with
      | none => exact ⟨rfl, left⟩
      | some delay => cases limiter.reports <;> exact ⟨rfl, left⟩

variable (api : ClusterApi) (node : Node)

/-- In a session that admits requests, listing pods ends as the cluster answers. -/
theorem listPods_returns : (api.listPods node).Returns Session.Admits (api.listedPods node) :=
  api.listPods_returns_of_throttle (fun _ admits => admits.throttle_admits) (fun _ admits => admits) node

/-- In a session that admits requests, listing pods makes the call for the node. -/
theorem listPods_calls : (api.listPods node).Calls Session.Admits node.podCalls := by
  have granted : Act.throttle.Calls Session.Admits [] := fun session admits =>
    ⟨by rw [admits.throttle_calls, List.append_nil], admits.throttle_admits.2⟩
  have returned : Act.throttle.Returns Session.Admits (.ok ()) := fun _ admits => admits.throttle_admits
  have elapsed : (Act.elapse api.latency).Calls Session.Admits [] := fun session admits =>
    ⟨(List.append_nil _).symm, admits⟩
  rw [ClusterApi.listPods, Node.podCalls]
  cases node.name with
  | error fault => exact Act.calls_throw fault
  | ok name =>
      refine granted.bind returned (((Act.calls_called _).bind_silent fun _ => ?_))
      refine elapsed.bind_silent fun _ => ?_
      rcases api.pods name with failure | absent | pods
      · exact Act.calls_throw _
      · exact Act.calls_throw _
      · exact Act.calls_pure _

/-- A build comes to what the answers of the cluster come to, however often it has to wait. -/
theorem ofCluster_returns (config : NodeMapConfig) (schedule : List PoolMove) :
    (NodeMap.ofCluster config schedule api).Returns Session.Admits
      (api.listedNodes >>= NodeMap.outcome config api.listedPods) := by
  apply NodeMap.ofCluster_returns_of_throttle
  · exact fun _ admits => admits.throttle_admits
  · exact fun _ admits => admits
  · exact fun _ _ admits => admits

end Session.Admits

end SpotCapacity
