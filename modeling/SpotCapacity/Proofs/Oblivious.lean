import SpotCapacity.Proofs.NodeMap.Outcome

/-!
# Work that does not look back

What was done before stays in the trace of a session and makes no difference to what is done next: an
oblivious act ends in the same way and adds the same events, whatever the trace held when it began
(`Oblivious`). Listing pods and waiting for the rate limiter are of this kind, and what is composed of
such acts is, so that the accounts of all nodes are (`NodeMap.oblivious_accountAll`).
-/

namespace SpotCapacity

/-- The session with other events before those of its trace. -/
def Session.behind (session : Session) (earlier : List Event) : Session :=
  { session with trace := earlier ++ session.trace }

/-- Work that does not depend on what was done before it. -/
def Oblivious {α : Type} (work : StateM Session α) : Prop :=
  ∀ session earlier,
    work (session.behind earlier) = ((work session).1, (work session).2.behind earlier)

variable {α β : Type}

private theorem oblivious_pure (value : α) : Oblivious (pure value) := fun _ _ => rfl

/-- Work goes on regardless of earlier events if both its parts do. -/
theorem Oblivious.bind {work : StateM Session α} {next : α → StateM Session β}
    (first : Oblivious work) (second : ∀ session, Oblivious (next (work session).1)) :
    Oblivious (work >>= next) := by
  intro session earlier
  change next (work (session.behind earlier)).1 (work (session.behind earlier)).2 = _
  rw [first session earlier]
  exact second session _ earlier

namespace Act

theorem oblivious_value (value : α) : Oblivious (pure value : Act α).run := fun _ _ => rfl

private theorem oblivious_throw (fault : Fault) : Oblivious (throw fault : Act α).run := fun _ _ => rfl

/-- An outcome that is known looks at no earlier event. -/
theorem oblivious_ofExcept (result : Except Fault α) : Oblivious (Act.ofExcept result).run := by
  cases result with
  | error fault => exact oblivious_throw fault
  | ok value => exact oblivious_value value

/-- Acts in turn look at no earlier event if none of them does. -/
theorem oblivious_bind {act : Act α} {next : α → Act β} (first : Oblivious act.run)
    (second : ∀ value, Oblivious (next value).run) : Oblivious (act >>= next).run := by
  intro session earlier
  have moved : act (session.behind earlier) = ((act session).1, (act session).2.behind earlier) :=
    first session earlier
  change (act >>= next) (session.behind earlier) =
    (((act >>= next) session).1, ((act >>= next) session).2.behind earlier)
  rcases ended : act session with ⟨fault | value, later⟩
  · rw [ended] at moved
    rw [bind_of_error ended, bind_of_error moved]
  · rw [ended] at moved
    rw [bind_of_ok ended, bind_of_ok moved]
    exact second value later earlier

private theorem oblivious_outcome {act : Act α} (first : Oblivious act.run) :
    Oblivious (Act.outcome act).run := by
  intro session earlier
  have moved : act (session.behind earlier) = ((act session).1, (act session).2.behind earlier) :=
    first session earlier
  change Act.outcome act (session.behind earlier) = _
  unfold Act.outcome
  rw [moved]
  rfl

/-- An act that reads the session, but not its trace. -/
theorem oblivious_get {next : Session → Act α}
    (same : ∀ session earlier, next (session.behind earlier) = next session)
    (second : ∀ session, Oblivious (next session).run) : Oblivious (get >>= next).run := by
  intro session earlier
  change next (session.behind earlier) (session.behind earlier) = _
  rw [same]
  exact second session session earlier

private theorem oblivious_change {f : Session → Session}
    (commutes : ∀ session earlier, f (session.behind earlier) = (f session).behind earlier) :
    Oblivious (Act.change f).run := by
  intro session earlier
  change (Except.ok (), f (session.behind earlier)) = (Except.ok (), (f session).behind earlier)
  rw [commutes]

private theorem oblivious_note (event : Event) : Oblivious (Act.note event).run := by
  apply oblivious_change
  intro session earlier
  unfold Session.note Session.behind
  rw [List.append_assoc]

/-- Writing a record looks at no earlier event. -/
theorem oblivious_log (severity : Severity) (component : Component) (message : String) :
    Oblivious (Act.log severity component message).run :=
  oblivious_note _

private theorem oblivious_elapse (duration : Double) : Oblivious (Act.elapse duration).run :=
  oblivious_change fun _ _ => rfl

/-- Waiting for the rate limiter looks at no earlier event. -/
theorem oblivious_throttle : Oblivious Act.throttle.run := by
  unfold throttle
  refine oblivious_get (fun _ _ => rfl) ?_
  intro session
  dsimp only
  cases session.limiter with
  | none => exact oblivious_value ()
  | some limiter =>
      refine oblivious_bind (oblivious_change fun _ _ => rfl) ?_
      intro _
      cases limiter.acquire session.now fun delay => session.now + (delay + session.oversleep) with
      | error fault => exact oblivious_throw fault
      | ok granted =>
          have recorded : Oblivious (Act.change fun session =>
              { session with now := granted.time, limiter := some granted.limiter }).run :=
            oblivious_change fun _ _ => rfl
          dsimp only
          cases granted.delay with
          | none => exact recorded
          | some delay =>
              refine oblivious_bind (oblivious_log _ _ _) ?_
              intro _
              have slept := oblivious_bind (oblivious_note (.slept delay)) fun _ => recorded
              cases limiter.reports with
              | false => exact slept
              | true => exact oblivious_bind (oblivious_note _) fun _ => slept

end Act

namespace PoolCell

/-- A cell whose task, if it is still to run, does not look back. -/
def Oblivious (cell : PoolCell α) : Prop :=
  match cell with
  | .waiting task => SpotCapacity.Oblivious task.run
  | .running _ => True
  | .finished _ => True

private theorem oblivious_finish {cell : PoolCell α} (oblivious : cell.Oblivious) :
    cell.finish.Oblivious := by
  cases cell <;> exact oblivious

end PoolCell

namespace Pool

private theorem oblivious_startNext {cells : List (PoolCell α)}
    (oblivious : ∀ cell ∈ cells, cell.Oblivious) : Oblivious (startNext cells) := by
  induction cells with
  | nil => exact oblivious_pure []
  | cons cell rest ih =>
      obtain ⟨here, others⟩ := List.forall_mem_cons.mp oblivious
      cases cell with
      | waiting task => exact Oblivious.bind here fun _ => oblivious_pure _
      | running result => exact (ih others).bind fun _ => oblivious_pure _
      | finished result => exact (ih others).bind fun _ => oblivious_pure _

/-- Starting a task leaves cells that do not look back. -/
theorem startNext_oblivious {cells : List (PoolCell α)}
    (oblivious : ∀ cell ∈ cells, cell.Oblivious) (session : Session) :
    ∀ cell ∈ (startNext cells session).1, cell.Oblivious := by
  induction cells with
  | nil => exact oblivious
  | cons cell rest ih =>
      obtain ⟨here, others⟩ := List.forall_mem_cons.mp oblivious
      cases cell with
      | waiting task => exact List.forall_mem_cons.mpr ⟨trivial, others⟩
      | running result => exact List.forall_mem_cons.mpr ⟨trivial, ih others⟩
      | finished result => exact List.forall_mem_cons.mpr ⟨trivial, ih others⟩

private theorem oblivious_startAll {cells : List (PoolCell α)}
    (oblivious : ∀ cell ∈ cells, cell.Oblivious) : Oblivious (startAll cells) := by
  induction cells with
  | nil => exact oblivious_pure ()
  | cons cell rest ih =>
      obtain ⟨here, others⟩ := List.forall_mem_cons.mp oblivious
      cases cell with
      | waiting task => exact Oblivious.bind here fun _ => ih others
      | running result => exact ih others
      | finished result => exact ih others

private theorem oblivious_await {cell : PoolCell α} (oblivious : cell.Oblivious) :
    Oblivious (await cell) := by
  cases cell with
  | waiting task => exact oblivious
  | running result => exact oblivious_pure result
  | finished result => exact oblivious_pure result

private theorem oblivious_conclude {cells : List (PoolCell α)}
    (oblivious : ∀ cell ∈ cells, cell.Oblivious) : Oblivious (conclude cells) := by
  induction cells with
  | nil => exact oblivious_pure _
  | cons cell rest ih =>
      obtain ⟨here, others⟩ := List.forall_mem_cons.mp oblivious
      intro session earlier
      have moved := oblivious_await here session earlier
      rcases awaited : await cell session with ⟨fault | value, later⟩
      all_goals rw [awaited] at moved
      · rw [conclude_of_error awaited, conclude_of_error moved, oblivious_startAll others later earlier]
        split
        · rfl
        · rfl
      · rw [conclude_of_ok awaited, conclude_of_ok moved, ih others later earlier]

/-- A pool whose tasks look at no earlier event looks at none. -/
theorem oblivious_run (workers : Int) (schedule : List PoolMove) {cells : List (PoolCell α)}
    (oblivious : ∀ cell ∈ cells, cell.Oblivious) : Oblivious (run workers schedule cells) := by
  induction schedule generalizing cells with
  | nil => exact oblivious_conclude oblivious
  | cons move moves ih =>
      cases move with
      | start =>
          rw [run]
          split
          · exact (oblivious_startNext oblivious).bind fun session =>
              ih (startNext_oblivious oblivious session)
          · exact ih oblivious
      | finish place =>
          refine ih ?_
          intro cell member
          obtain ⟨index, here⟩ := List.mem_iff_getElem?.mp member
          rw [List.getElem?_modify] at here
          obtain ⟨before, inside, rfl⟩ := Option.map_eq_some_iff.mp here
          have kept : before.Oblivious := oblivious before (List.mem_of_getElem? inside)
          split
          · exact PoolCell.oblivious_finish kept
          · exact kept
      | observe =>
          rw [run]
          cases seen? cells with
          | none => exact ih oblivious
          | some fault =>
              dsimp only
              split
              · exact oblivious_pure _
              · exact ih oblivious

private theorem oblivious_results (workers : Int) (schedule : List PoolMove) {tasks : List (Act α)}
    (oblivious : ∀ task ∈ tasks, Oblivious task.run) :
    Oblivious (results workers schedule tasks).run := by
  refine oblivious_run workers schedule ?_
  intro cell member
  obtain ⟨task, inside, rfl⟩ := List.mem_map.mp member
  exact oblivious task inside

end Pool

namespace NodeMapConfig

private theorem oblivious_inTurn {tasks : List (Act α)} (oblivious : ∀ task ∈ tasks, Oblivious task.run) :
    Oblivious (inTurn tasks).run := by
  induction tasks with
  | nil => exact Act.oblivious_value []
  | cons task rest ih =>
      obtain ⟨here, others⟩ := List.forall_mem_cons.mp oblivious
      exact Act.oblivious_bind here fun _ => Act.oblivious_bind (ih others) fun _ =>
        Act.oblivious_value _

end NodeMapConfig

/-- Listing pods looks at no earlier event. -/
theorem ClusterApi.oblivious_listPods (api : ClusterApi) (node : Node) :
    Oblivious (api.listPods node).run := by
  unfold listPods
  refine Act.oblivious_bind (Act.oblivious_ofExcept _) fun name => ?_
  refine Act.oblivious_bind Act.oblivious_throttle fun _ => ?_
  refine Act.oblivious_bind (Act.oblivious_note _) fun _ => ?_
  refine Act.oblivious_bind (Act.oblivious_elapse _) fun _ => ?_
  rcases api.pods name with failure | absent | pods
  · exact Act.oblivious_throw _
  · exact Act.oblivious_throw _
  · exact Act.oblivious_value pods

section

variable (config : NodeMapConfig) {lister : PodLister}
  (oblivious : ∀ node, Oblivious (lister node).run)

namespace NodeMapConfig

private theorem oblivious_dropLowPriority (node : Node) (pods : List Pod) :
    Oblivious (config.dropLowPriority node pods).run := by
  induction pods with
  | nil => exact Act.oblivious_value []
  | cons pod rest ih =>
      unfold dropLowPriority
      split
      · exact Act.oblivious_bind (Act.oblivious_ofExcept _) fun _ =>
          Act.oblivious_bind (Act.oblivious_ofExcept _) fun _ =>
            Act.oblivious_bind (Act.oblivious_ofExcept _) fun _ =>
              Act.oblivious_bind (Act.oblivious_ofExcept _) fun _ =>
                Act.oblivious_bind (Act.oblivious_log _ _ _) fun _ => ih
      · exact Act.oblivious_bind ih fun _ => Act.oblivious_value _

include oblivious

private theorem oblivious_account (node : Node) (nodeClass : NodeClass) :
    Oblivious (config.account lister node nodeClass).run := by
  rw [account_eq]
  refine Act.oblivious_bind (oblivious node) fun listed => Act.oblivious_bind ?_ fun pods =>
    Act.oblivious_bind (Act.oblivious_ofExcept _) fun sorted => Act.oblivious_ofExcept _
  split
  · exact config.oblivious_dropLowPriority node listed
  · exact Act.oblivious_value listed

private theorem oblivious_accountReporting (node : Node) (nodeClass : NodeClass) :
    Oblivious (config.accountReporting lister node nodeClass).run := by
  unfold accountReporting
  refine Act.oblivious_bind
    (Act.oblivious_outcome (config.oblivious_account oblivious node nodeClass)) fun result => ?_
  cases result with
  | ok info => exact Act.oblivious_value info
  | error fault =>
      dsimp only
      split
      · exact Act.oblivious_bind (Act.oblivious_ofExcept _) fun _ =>
          Act.oblivious_bind (Act.oblivious_log _ _ _) fun _ => Act.oblivious_throw fault
      · exact Act.oblivious_throw fault

end NodeMapConfig

include oblivious

/-- The accounts of all nodes do not look back, in turn or on a pool. -/
theorem NodeMap.oblivious_accountAll (schedule : List PoolMove)
    (entries : List (Node × NodeClass)) :
    Oblivious (accountAll config lister schedule entries).run := by
  have tasks : ∀ task ∈ entries.map (accountTask config lister), Oblivious task.run := by
    intro task member
    obtain ⟨entry, -, rfl⟩ := List.mem_map.mp member
    exact Act.oblivious_bind (config.oblivious_accountReporting oblivious entry.1 entry.2)
      fun _ => Act.oblivious_value _
  unfold accountAll
  split
  · exact Pool.oblivious_results _ _ tasks
  · exact NodeMapConfig.oblivious_inTurn tasks

end

end SpotCapacity
