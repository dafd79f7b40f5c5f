import SpotCapacity.Proofs.Cluster
import SpotCapacity.Proofs.Monitor
import SpotCapacity.Proofs.Oblivious

/-!
# Excluded nodes

A node of no class is reported in the log and left out before anything else is done, so that deleting
such nodes from a list changes nothing but the log: the build ends in the same way and does the same,
call for call (`NodeMap.build_without`). The exception is a node without metadata, which has no labels
and so no class: it cannot be reported, and no map is built of a list that has one.
-/

namespace SpotCapacity

def Event.isRecord : Event → Bool
  | .logged _ => true
  | _ => false

namespace Session

/-- The session without the log records in its trace. -/
def unlogged (session : Session) : Session :=
  { session with trace := session.trace.filter fun event => !event.isRecord }

private theorem unlogged_note_logged (session : Session) (record : LogRecord) :
    (session.note (.logged record)).unlogged = session.unlogged := by
  unfold note unlogged
  rw [List.filter_append]
  exact congrArg (fun trace => { session with trace := trace }) (List.append_nil _)

private theorem calls_unlogged (session : Session) : session.unlogged.calls = session.calls := by
  unfold calls unlogged
  dsimp only
  rw [List.filterMap_filter]
  congr 1
  funext event
  cases event <;> rfl

private theorem calls_eq_of_unlogged {session other : Session} (same : session.unlogged = other.unlogged) :
    session.calls = other.calls := by
  rw [← session.calls_unlogged, same, calls_unlogged]

private theorem unlogged_behind (session : Session) (earlier : List Event) :
    (session.behind earlier).unlogged =
      session.unlogged.behind (earlier.filter fun event => !event.isRecord) := by
  unfold behind unlogged
  rw [List.filter_append]

end Session

variable {α β : Type}

/-- Work that does not look back goes on in the same way from sessions that differ in their log only. -/
theorem Oblivious.unlogged {work : StateM Session α} (oblivious : Oblivious work)
    {session other : Session} (same : session.unlogged = other.unlogged) :
    (work session).1 = (work other).1 ∧ (work session).2.unlogged = (work other).2.unlogged := by
  have cleared : session.unlogged.cleared = other.unlogged.cleared := congrArg Session.cleared same
  have cleared : session.cleared = other.cleared := cleared
  have trace : session.trace.filter (fun event => !event.isRecord) =
      other.trace.filter fun event => !event.isRecord := congrArg Session.trace same
  have fromCleared : ∀ session : Session, work session =
      ((work session.cleared).1, (work session.cleared).2.behind session.trace) := by
    intro session
    have restored : session.cleared.behind session.trace = session := by
      unfold Session.cleared Session.behind
      rw [List.append_nil]
    rw [← oblivious, restored]
  rw [fromCleared session, fromCleared other, cleared]
  refine ⟨rfl, ?_⟩
  dsimp only
  rw [Session.unlogged_behind, Session.unlogged_behind, trace]

namespace Act

/-- An act that does nothing but log. -/
def OnlyLogs (act : Act α) : Prop := ∀ session, (act session).2.unlogged = session.unlogged

private theorem onlyLogs_pure (value : α) : (pure value : Act α).OnlyLogs := fun _ => rfl

private theorem onlyLogs_ofExcept (result : Except Fault α) : (Act.ofExcept result).OnlyLogs := by
  cases result with
  | error fault => exact fun _ => rfl
  | ok value => exact onlyLogs_pure value

private theorem onlyLogs_log (severity : Severity) (component : Component) (message : String) :
    (Act.log severity component message).OnlyLogs :=
  fun session => session.unlogged_note_logged _

private theorem OnlyLogs.bind {act : Act α} {next : α → Act β} (first : act.OnlyLogs)
    (second : ∀ value, (next value).OnlyLogs) : (act >>= next).OnlyLogs := by
  intro session
  have logged := first session
  rcases ended : act session with ⟨fault | value, later⟩
  all_goals rw [ended] at logged
  · rw [bind_of_error ended]
    exact logged
  · rw [bind_of_ok ended]
    exact (second value later).trans logged

end Act

namespace NodeMapConfig

variable {config : NodeMapConfig} {nodes deleted kept : List Node}

/-- Telling nodes apart writes records and does nothing else. -/
theorem triage_onlyLogs (config : NodeMapConfig) (nodes : List Node) :
    (config.triage nodes).OnlyLogs := by
  induction nodes with
  | nil => exact Act.onlyLogs_pure []
  | cons node rest ih =>
      unfold triage
      cases config.classify node with
      | none =>
          exact (Act.onlyLogs_ofExcept node.name).bind fun _ =>
            (Act.onlyLogs_log _ _ _).bind fun _ => ih
      | spot => exact ih.bind fun _ => Act.onlyLogs_pure _
      | onDemand => exact ih.bind fun _ => Act.onlyLogs_pure _

/-- A triage comes to the chosen nodes and does nothing but log. -/
theorem triage_ends (config : NodeMapConfig) (nodes : List Node) (session : Session) :
    ∃ later, config.triage nodes session = (config.chosen nodes, later) ∧
      later.unlogged = session.unlogged := by
  have returned : (config.triage nodes).Returns anySession (config.chosen nodes) :=
    config.triage_returns nodes
  exact ⟨_, Prod.ext (returned session trivial).1 rfl, config.triage_onlyLogs nodes session⟩

/-- A list of nodes, some nodes of no class in it, and the list without them. -/
inductive Without (config : NodeMapConfig) : List Node → List Node → List Node → Prop where
  | nil : Without config [] [] []
  | keep (node : Node) {nodes deleted kept : List Node} (rest : Without config nodes deleted kept) :
      Without config (node :: nodes) deleted (node :: kept)
  | delete {node : Node} (excluded : config.classify node = .none) {nodes deleted kept : List Node}
      (rest : Without config nodes deleted kept) :
      Without config (node :: nodes) (node :: deleted) kept

private theorem Without.subset (without : config.Without nodes deleted kept) :
    ∀ node ∈ deleted, node ∈ nodes := by
  induction without with
  | nil => exact fun _ member => member
  | keep node rest ih => exact fun other member => List.mem_cons_of_mem _ (ih other member)
  | delete excluded rest ih =>
      intro other member
      rcases List.mem_cons.mp member with rfl | later
      · exact List.mem_cons_self
      · exact List.mem_cons_of_mem _ (ih other later)

/-- Nodes of no class that can be reported make no difference to what is chosen. -/
theorem chosen_of_without (without : config.Without nodes deleted kept)
    (reported : ∀ node ∈ deleted, node.metadata ≠ none) :
    config.chosen nodes = config.chosen kept := by
  induction without with
  | nil => rfl
  | @keep node nodes deleted kept rest ih =>
      by_cases excluded : config.classify node = .none
      · rw [config.chosen_cons_of_excluded excluded, config.chosen_cons_of_excluded excluded,
          ih reported]
      · rw [config.chosen_cons_of_classified excluded, config.chosen_cons_of_classified excluded,
          ih reported]
  | @delete node excluded nodes deleted kept rest ih =>
      obtain ⟨here, others⟩ := List.forall_mem_cons.mp reported
      obtain ⟨metadata, present⟩ := Option.ne_none_iff_exists'.mp here
      have named : node.name = .ok metadata.name := by rw [Node.name, present]
      rw [config.chosen_cons_of_excluded excluded, named, Outcome.ok_bind, ih others]

private theorem name_of_nameless {node : Node} (nameless : node.metadata = none) :
    node.name = .error (.noMember .null "name") := by
  rw [Node.name, nameless]

/-- Nothing is chosen from a list with a node that cannot be reported. -/
theorem chosen_of_nameless (config : NodeMapConfig)
    (nameless : ∃ node ∈ nodes, node.metadata = none) :
    config.chosen nodes = .error (.noMember .null "name") := by
  obtain ⟨node, member, absent⟩ := nameless
  induction nodes with
  | nil => exact absurd member List.not_mem_nil
  | cons first rest ih =>
      by_cases excluded : config.classify first = .none
      · rw [config.chosen_cons_of_excluded excluded]
        cases present : first.metadata with
        | none => rw [name_of_nameless present, Outcome.error_bind]
        | some metadata =>
            have named : first.name = .ok metadata.name := by rw [Node.name, present]
            have different : node ≠ first := by
              rintro rfl
              cases absent.symm.trans present
            rw [named, Outcome.ok_bind, ih (List.mem_of_ne_of_mem different member)]
      · have different : node ≠ first := by
          rintro rfl
          obtain ⟨name, named⟩ := config.named_of_classify excluded
          cases (name_of_nameless absent).symm.trans named
        rw [config.chosen_cons_of_classified excluded,
          ih (List.mem_of_ne_of_mem different member), Outcome.error_bind]

end NodeMapConfig

namespace NodeMap

variable {config : NodeMapConfig} {nodes others deleted kept : List Node}

/-- Lists from which the same nodes are chosen make builds that differ in their log only. -/
theorem build_of_chosen (same : config.chosen nodes = config.chosen others) (api : ClusterApi)
    (schedule : List PoolMove) (session : Session) :
    (build config api.listPods schedule nodes session).1 =
        (build config api.listPods schedule others session).1 ∧
      (build config api.listPods schedule nodes session).2.unlogged =
        (build config api.listPods schedule others session).2.unlogged := by
  obtain ⟨later, triaged, logged⟩ := config.triage_ends nodes session
  obtain ⟨later', triaged', logged'⟩ := config.triage_ends others session
  rw [same] at triaged
  rw [build_eq, build_eq]
  cases chosen : config.chosen others with
  | error fault =>
      rw [chosen] at triaged triaged'
      rw [Act.bind_of_error triaged, Act.bind_of_error triaged']
      exact ⟨rfl, logged.trans logged'.symm⟩
  | ok entries =>
      rw [chosen] at triaged triaged'
      rw [Act.bind_of_ok triaged, Act.bind_of_ok triaged']
      -- What follows the triage begins in sessions that differ in their log only.
      have oblivious := Act.oblivious_bind
        (oblivious_accountAll config api.oblivious_listPods schedule entries) fun infos =>
          Act.oblivious_bind (Act.oblivious_ofExcept (assemble infos).summary) fun summary =>
            Act.oblivious_bind (Act.oblivious_log .info .nodes s!"Node map built: {summary}")
              fun _ => Act.oblivious_value (assemble infos)
      exact oblivious.unlogged (logged.trans logged'.symm)

/-- **Excluded nodes.** Nodes of no class may be deleted from a list, wherever they are, if they have
metadata: the build of what is kept ends in the same way, with the same map or the same fault, makes the
same calls, and leaves everything but the log as it was, whatever the cluster, the schedule and the rate
limiter. If one of them has no metadata, the build of the whole list fails before it makes a call. -/
theorem build_without (without : config.Without nodes deleted kept) (api : ClusterApi)
    (schedule : List PoolMove) (session : Session) :
    let whole := build config api.listPods schedule nodes session
    let rest := build config api.listPods schedule kept session
    ((∀ node ∈ deleted, node.metadata ≠ none) →
      whole.1 = rest.1 ∧ whole.2.calls = rest.2.calls ∧ whole.2.unlogged = rest.2.unlogged) ∧
    ((∃ node ∈ deleted, node.metadata = none) →
      whole.1 = .error (.noMember .null "name") ∧ whole.2.calls = session.calls) := by
  intro whole rest
  constructor
  · intro reported
    have chosen := NodeMapConfig.chosen_of_without without reported
    obtain ⟨ended, unlogged⟩ := build_of_chosen chosen api schedule session
    exact ⟨ended, Session.calls_eq_of_unlogged unlogged, unlogged⟩
  · intro unreported
    obtain ⟨node, member, nameless⟩ := unreported
    obtain ⟨later, triaged, logged⟩ := config.triage_ends nodes session
    rw [config.chosen_of_nameless ⟨node, without.subset node member, nameless⟩] at triaged
    have failed : whole = (.error (.noMember .null "name"), later) := by
      change build config api.listPods schedule nodes session = _
      rw [build_eq, Act.bind_of_error triaged]
    rw [failed]
    exact ⟨rfl, Session.calls_eq_of_unlogged logged⟩

/-- The control node of the small fleet, which is of no class, makes no difference to its map. -/
theorem build_without_smallFleet :
    NodeMapConfig.standard.Without SmallFleet.nodes [SmallFleet.control]
        [SmallFleet.idle, SmallFleet.stable, SmallFleet.busy] ∧
      (build .standard SmallFleet.api.listPods [] SmallFleet.nodes (.start 0 none)).1 =
        .ok SmallFleet.map ∧
      (build .standard SmallFleet.api.listPods []
        [SmallFleet.idle, SmallFleet.stable, SmallFleet.busy] (.start 0 none)).1 =
        .ok SmallFleet.map := by
  have without : NodeMapConfig.standard.Without SmallFleet.nodes [SmallFleet.control]
      [SmallFleet.idle, SmallFleet.stable, SmallFleet.busy] := by
    have excluded : NodeMapConfig.standard.classify SmallFleet.control = .none := by decide +kernel
    exact .keep _ (.delete excluded (.keep _ (.keep _ .nil)))
  have reported : ∀ node ∈ [SmallFleet.control], node.metadata ≠ none := by
    intro node member
    rw [List.mem_singleton.mp member]
    exact Option.some_ne_none _
  obtain ⟨same, -⟩ := (build_without without SmallFleet.api [] (.start 0 none)).1 reported
  exact ⟨without, SmallFleet.api_build, same.symm.trans SmallFleet.api_build⟩

/-- A list with nothing but a node without metadata, which is of no class, cannot be built, while the
empty list can. -/
theorem build_fails_nameless :
    NodeMapConfig.standard.classify ⟨none, none⟩ = .none ∧
      (build .standard ClusterApi.empty.listPods [] [⟨none, none⟩] (.start 0 none)).1 =
        .error (.noMember .null "name") ∧
      (build .standard ClusterApi.empty.listPods [] [] (.start 0 none)).1 = .ok ⟨[], []⟩ := by
  refine ⟨by decide, rfl, ?_⟩
  have arranged : assemble [] = ⟨[], []⟩ := by simp [assemble]
  have summed : (⟨[], []⟩ : NodeMap).summary = .ok ("0 spot nodes (0m requested), " ++
      "0 on-demand nodes (0m requested, 0m free)") := by decide +kernel
  have comes : outcome .standard ClusterApi.empty.listedPods [] = .ok ⟨[], []⟩ := by
    have chosen : NodeMapConfig.standard.chosen [] = .ok [] := rfl
    simp only [outcome, chosen, Outcome.ok_bind, List.mapM_nil, pure, Except.pure, arranged, summed]
  have lists : ∀ node, (ClusterApi.empty.listPods node).Returns SmallFleet.still
      (ClusterApi.empty.listedPods node) :=
    ClusterApi.listPods_returns (fun _ valid => valid.1) SmallFleet.still_elapses
  rw [← comes]
  exact (build_returns lists [] [] _ ⟨rfl, rfl⟩).1

end NodeMap

end SpotCapacity
