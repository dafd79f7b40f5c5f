import SpotCapacity.NodeMap.Build
import SpotCapacity.Proofs.Conduct

/-!
# Pools keep the order of their tasks

A pool of tasks, each with one outcome in every session, ends with the outcomes collected in the
order of the tasks, by whatever schedule they start and finish (`Pool.results_returns`), and so do
tasks that are taken in turn (`NodeMapConfig.inTurn_returns`). When all tasks succeed, each of them
has run once, so that a pool makes the same calls as tasks in turn, in some order
(`Pool.results_calls`). What the tasks are known to yield holds of the results, task by task
(`Pool.results_yields`).
-/

namespace SpotCapacity

variable {α : Type} {kind : Session → Prop}

namespace PoolCell

/-- A cell that has, or will have, an outcome. -/
def Settles (kind : Session → Prop) (cell : PoolCell α) (outcome : Except Fault α) : Prop :=
  match cell with
  | .waiting task => task.Returns kind outcome
  | .running result => result = outcome
  | .finished result => result = outcome

/-- The calls that a cell has still to make. -/
def Owes (kind : Session → Prop) (cell : PoolCell α) (calls : List ApiCall) : Prop :=
  match cell with
  | .waiting task => task.Calls kind calls
  | .running _ => calls = []
  | .finished _ => calls = []

/-- Whatever value a cell has, or will have, has a property. -/
def Yields (cell : PoolCell α) (holds : α → Prop) : Prop :=
  match cell with
  | .waiting task => task.Yields holds
  | .running result => ∀ value, result = .ok value → holds value
  | .finished result => ∀ value, result = .ok value → holds value

private theorem finish_yields {cell : PoolCell α} {holds : α → Prop} (yields : cell.Yields holds) :
    cell.finish.Yields holds := by
  cases cell <;> exact yields

private theorem finish_settles {cell : PoolCell α} {outcome : Except Fault α}
    (settles : cell.Settles kind outcome) : cell.finish.Settles kind outcome := by
  cases cell <;> exact settles

private theorem finish_owes {cell : PoolCell α} {calls : List ApiCall} (owes : cell.Owes kind calls) :
    cell.finish.Owes kind calls := by
  cases cell <;> exact owes

end PoolCell

namespace Pool

/-- A change of one cell that keeps what the cell stands for. -/
private theorem modify_forall₂ {β : Type} {relation : PoolCell α → β → Prop}
    {change : PoolCell α → PoolCell α}
    (kept : ∀ cell value, relation cell value → relation (change cell) value)
    {cells : List (PoolCell α)} {values : List β} (related : List.Forall₂ relation cells values)
    (place : Nat) : List.Forall₂ relation (cells.modify place change) values := by
  induction related generalizing place with
  | nil => simpa only [List.modify_nil] using List.Forall₂.nil
  | cons here rest ih =>
      cases place with
      | zero => exact .cons (kept _ _ here) rest
      | succ place => exact .cons here (ih place)

private theorem startNext_settles {cells : List (PoolCell α)} {outcomes : List (Except Fault α)}
    (settle : List.Forall₂ (PoolCell.Settles kind) cells outcomes) (session : Session)
    (valid : kind session) :
    List.Forall₂ (PoolCell.Settles kind) (startNext cells session).1 outcomes ∧
      kind (startNext cells session).2 := by
  induction settle with
  | nil => exact ⟨.nil, valid⟩
  | @cons cell outcome cells outcomes here rest ih =>
      cases cell with
      | waiting task =>
          obtain ⟨same, kept⟩ := here session valid
          exact ⟨.cons same rest, kept⟩
      | running result => exact ⟨.cons here ih.1, ih.2⟩
      | finished result => exact ⟨.cons here ih.1, ih.2⟩

/-- The fault that the caller sees is the one that the outcomes come to. -/
theorem collect_of_seen? {cells : List (PoolCell α)} {outcomes : List (Except Fault α)}
    (settle : List.Forall₂ (PoolCell.Settles kind) cells outcomes) {fault : Fault}
    (seen : seen? cells = some fault) : Outcome.collect outcomes = .error fault := by
  induction settle with
  | nil => cases seen
  | @cons cell outcome cells outcomes here rest ih =>
      -- The caller looks past a cell only if its task finished with a value.
      cases cell with
      | waiting task => cases seen
      | running result => cases seen
      | finished result =>
          cases here
          cases outcome with
          | ok value => rw [Outcome.collect_ok_cons, ih seen, Outcome.error_bind]
          | error first =>
              cases seen
              exact Outcome.collect_error_cons fault outcomes

private theorem startAll_kind {cells : List (PoolCell α)} {outcomes : List (Except Fault α)}
    (settle : List.Forall₂ (PoolCell.Settles kind) cells outcomes) (session : Session)
    (valid : kind session) : kind (startAll cells session).2 := by
  induction settle generalizing session with
  | nil => exact valid
  | @cons cell outcome cells outcomes here rest ih =>
      cases cell with
      | waiting task => exact ih _ (here session valid).2
      | running result => exact ih session valid
      | finished result => exact ih session valid

/-- What awaiting a cell brings: the result of its task, which runs now if it is still waiting. -/
def await (cell : PoolCell α) (session : Session) : Except Fault α × Session :=
  match cell with
  | .waiting task => task session
  | .running result => (result, session)
  | .finished result => (result, session)

private theorem await_settles {cell : PoolCell α} {outcome : Except Fault α}
    (settles : cell.Settles kind outcome) (session : Session) (valid : kind session) :
    (await cell session).1 = outcome ∧ kind (await cell session).2 := by
  cases cell with
  | waiting task => exact settles session valid
  | running result => exact ⟨settles, valid⟩
  | finished result => exact ⟨settles, valid⟩

/-- A pool concludes with the value of its first cell and those of the others. -/
theorem conclude_of_ok {cell : PoolCell α} {session later : Session} {value : α}
    (awaited : await cell session = (.ok value, later)) (rest : List (PoolCell α)) :
    conclude (cell :: rest) session =
      (do let values ← (conclude rest later).1; .ok (value :: values), (conclude rest later).2) := by
  cases cell with
  | waiting task =>
      have awaited : task session = (.ok value, later) := awaited
      simp only [conclude, bind, StateT.bind, ExceptT.run, awaited]
      rcases conclude rest later with ⟨fault | values, last⟩ <;> rfl
  | running result =>
      cases awaited
      simp only [conclude, bind, StateT.bind, pure, StateT.pure]
      rcases conclude rest session with ⟨fault | values, last⟩ <;> rfl
  | finished result =>
      cases awaited
      simp only [conclude, bind, StateT.bind, pure, StateT.pure]
      rcases conclude rest session with ⟨fault | values, last⟩ <;> rfl

/-- A pool concludes with the fault of its first cell. Only after a fault of loading the waiting cells are not
started any more. -/
theorem conclude_of_error {cell : PoolCell α} {session later : Session} {fault : Fault}
    (awaited : await cell session = (.error fault, later)) (rest : List (PoolCell α)) :
    conclude (cell :: rest) session =
      (.error fault, if fault.kind.isLoad then later else (startAll rest later).2) := by
  cases cell with
  | waiting task =>
      have awaited : task session = (.error fault, later) := awaited
      simp only [conclude, bind, StateT.bind, ExceptT.run, awaited]
      cases fault.kind.isLoad <;> rfl
  | running result =>
      cases awaited
      simp only [conclude, bind, StateT.bind, pure, StateT.pure]
      cases fault.kind.isLoad <;> rfl
  | finished result =>
      cases awaited
      simp only [conclude, bind, StateT.bind, pure, StateT.pure]
      cases fault.kind.isLoad <;> rfl

private theorem conclude_returns {cells : List (PoolCell α)} {outcomes : List (Except Fault α)}
    (settle : List.Forall₂ (PoolCell.Settles kind) cells outcomes) (session : Session)
    (valid : kind session) :
    (conclude cells session).1 = Outcome.collect outcomes ∧ kind (conclude cells session).2 := by
  induction settle generalizing session with
  | nil => exact ⟨rfl, valid⟩
  | @cons cell outcome cells outcomes here rest ih =>
      obtain ⟨same, kept⟩ := await_settles here session valid
      rcases awaited : await cell session with ⟨fault | value, later⟩
      all_goals rw [awaited] at same kept; subst same
      · rw [conclude_of_error awaited]
        refine ⟨(Outcome.collect_error_cons fault outcomes).symm, ?_⟩
        dsimp only
        split
        · exact kept
        · exact startAll_kind rest later kept
      · rw [conclude_of_ok awaited, Outcome.collect_ok_cons]
        obtain ⟨values, still⟩ := ih later kept
        rw [values]
        exact ⟨rfl, still⟩

/-- The calls of a waiting task are made when it starts and are no longer owed then. -/
theorem startNext_owes {cells : List (PoolCell α)} {dues : List (List ApiCall)}
    (owe : List.Forall₂ (PoolCell.Owes kind) cells dues) (session : Session)
    (valid : kind session) :
    ∃ made dues', List.Forall₂ (PoolCell.Owes kind) (startNext cells session).1 dues' ∧
      (startNext cells session).2.calls = session.calls ++ made ∧
      (made ++ dues'.flatten).Perm dues.flatten := by
  induction owe with
  | nil => exact ⟨[], [], .nil, (List.append_nil _).symm, .refl _⟩
  | @cons cell calls cells dues here rest ih =>
      cases cell with
      | waiting task =>
          obtain ⟨made, -⟩ := here session valid
          exact ⟨calls, [] :: dues, .cons rfl rest, made, .refl _⟩
      | running result =>
          obtain ⟨made, dues', started, called, same⟩ := ih
          exact ⟨made, calls :: dues', .cons here started, called, here ▸ same⟩
      | finished result =>
          obtain ⟨made, dues', started, called, same⟩ := ih
          exact ⟨made, calls :: dues', .cons here started, called, here ▸ same⟩

private theorem await_owes {cell : PoolCell α} {calls : List ApiCall}
    (owes : cell.Owes kind calls) (session : Session) (valid : kind session) :
    (await cell session).2.calls = session.calls ++ calls := by
  cases cell with
  | waiting task => exact (owes session valid).1
  | running result => rw [show calls = [] from owes, List.append_nil]; rfl
  | finished result => rw [show calls = [] from owes, List.append_nil]; rfl

/-- A pool that succeeds makes all the calls it owes before it ends. -/
theorem conclude_calls {cells : List (PoolCell α)} {outcomes : List (Except Fault α)}
    {dues : List (List ApiCall)}
    (settle : List.Forall₂ (PoolCell.Settles kind) cells outcomes)
    (owe : List.Forall₂ (PoolCell.Owes kind) cells dues)
    (succeed : ∀ outcome ∈ outcomes, ∃ value, outcome = .ok value) (session : Session)
    (valid : kind session) :
    (conclude cells session).2.calls = session.calls ++ dues.flatten := by
  induction settle generalizing dues session with
  | nil =>
      cases owe
      exact (List.append_nil _).symm
  | @cons cell outcome cells outcomes here rest ih =>
      cases owe with
      | @cons _ calls _ dues due later =>
          obtain ⟨⟨value, rfl⟩, others⟩ := List.forall_mem_cons.mp succeed
          obtain ⟨same, kept⟩ := await_settles here session valid
          have made := await_owes due session valid
          rcases awaited : await cell session with ⟨result, after⟩
          rw [awaited] at same kept made
          subst same
          rw [conclude_of_ok awaited, ih later others after kept, made, List.flatten_cons,
            List.append_assoc]

/-- Whatever the schedule, a pool ends with its outcomes collected in order. -/
theorem run_returns (workers : Int) (schedule : List PoolMove) {cells : List (PoolCell α)}
    {outcomes : List (Except Fault α)}
    (settle : List.Forall₂ (PoolCell.Settles kind) cells outcomes) (session : Session)
    (valid : kind session) :
    (run workers schedule cells session).1 = Outcome.collect outcomes ∧
      kind (run workers schedule cells session).2 := by
  induction schedule generalizing cells session with
  | nil => exact conclude_returns settle session valid
  | cons move moves ih =>
      cases move with
      | start =>
          rw [run]
          split
          · obtain ⟨started, kept⟩ := startNext_settles settle session valid
            exact ih started _ kept
          · exact ih settle session valid
      | finish place =>
          exact ih (modify_forall₂ (fun _ _ => PoolCell.finish_settles) settle place) session valid
      | observe =>
          rw [run]
          cases seen : seen? cells with
          | none => exact ih settle session valid
          | some fault =>
              -- Only a load fault ends the pool here; another one is met again at its end.
              by_cases load : fault.kind.isLoad = true
              · simp only [load, ↓reduceIte]
                exact ⟨(collect_of_seen? settle seen).symm, valid⟩
              · simp only [load]
                exact ih settle session valid

/-- Whatever the schedule, a pool that succeeds makes the calls it owes. -/
theorem run_calls (workers : Int) (schedule : List PoolMove) {cells : List (PoolCell α)}
    {outcomes : List (Except Fault α)} {dues : List (List ApiCall)}
    (settle : List.Forall₂ (PoolCell.Settles kind) cells outcomes)
    (owe : List.Forall₂ (PoolCell.Owes kind) cells dues)
    (succeed : ∀ outcome ∈ outcomes, ∃ value, outcome = .ok value) (session : Session)
    (valid : kind session) :
    (run workers schedule cells session).2.calls.Perm (session.calls ++ dues.flatten) := by
  induction schedule generalizing cells dues session with
  | nil => rw [run, conclude_calls settle owe succeed session valid]
  | cons move moves ih =>
      cases move with
      | start =>
          rw [run]
          split
          · obtain ⟨started, kept⟩ := startNext_settles settle session valid
            obtain ⟨made, dues', owing, called, same⟩ := startNext_owes owe session valid
            refine (ih started owing _ kept).trans ?_
            rw [called, List.append_assoc]
            exact same.append_left _
          · exact ih settle owe session valid
      | finish place =>
          exact ih (modify_forall₂ (fun _ _ => PoolCell.finish_settles) settle place)
            (modify_forall₂ (fun _ _ => PoolCell.finish_owes) owe place) session valid
      | observe =>
          rw [run]
          cases seen : seen? cells with
          | none => exact ih settle owe session valid
          | some fault =>
              -- No fault can be seen, since all tasks succeed.
              have failed := collect_of_seen? settle seen
              obtain ⟨values, succeeded⟩ : ∃ values, Outcome.collect outcomes = .ok values :=
                Outcome.mapM_of_forall_ok succeed
              rw [succeeded] at failed
              cases failed

/-- All cells wait when a pool starts. -/
private theorem waiting_forall₂ {β γ : Type} {relation : PoolCell α → γ → Prop} {items : List β}
    {task : β → Act α} {value : β → γ}
    (related : ∀ item ∈ items, relation (.waiting (task item)) (value item)) :
    List.Forall₂ relation ((items.map task).map .waiting) (items.map value) := by
  rw [List.forall₂_map_left_iff, List.forall₂_map_left_iff, List.forall₂_map_right_iff,
    List.forall₂_same]
  exact related

section

variable {β : Type} {holds : β → α → Prop}

private theorem startNext_yields {cells : List (PoolCell α)} {items : List β}
    (yield : List.Forall₂ (fun cell item => cell.Yields (holds item)) cells items)
    (session : Session) :
    List.Forall₂ (fun cell item => cell.Yields (holds item)) (startNext cells session).1 items := by
  induction yield with
  | nil => exact .nil
  | @cons cell item cells items here rest ih =>
      cases cell with
      | waiting task => exact .cons (here session) rest
      | running result => exact .cons here ih
      | finished result => exact .cons here ih

private theorem await_yields {cell : PoolCell α} {property : α → Prop}
    (yields : cell.Yields property) (session : Session) {value : α}
    (came : (await cell session).1 = .ok value) : property value := by
  cases cell with
  | waiting task => exact yields session value came
  | running result => exact yields value came
  | finished result => exact yields value came

private theorem conclude_yields {cells : List (PoolCell α)} {items : List β}
    (yield : List.Forall₂ (fun cell item => cell.Yields (holds item)) cells items)
    (session : Session) {values : List α} (came : (conclude cells session).1 = .ok values) :
    List.Forall₂ holds items values := by
  induction yield generalizing session values with
  | nil =>
      cases came
      exact .nil
  | @cons cell item cells items here rest ih =>
      rcases awaited : await cell session with ⟨fault | value, later⟩
      · rw [conclude_of_error awaited] at came
        cases came
      · rw [conclude_of_ok awaited] at came
        obtain ⟨others, concluded, same⟩ := Outcome.bind_eq_ok_iff.mp came
        cases same
        exact .cons (await_yields here session (congrArg Prod.fst awaited)) (ih later concluded)

private theorem run_yields (workers : Int) (schedule : List PoolMove) {cells : List (PoolCell α)}
    {items : List β} (yield : List.Forall₂ (fun cell item => cell.Yields (holds item)) cells items)
    (session : Session) {values : List α}
    (came : (run workers schedule cells session).1 = .ok values) :
    List.Forall₂ holds items values := by
  induction schedule generalizing cells session with
  | nil => exact conclude_yields yield session came
  | cons move moves ih =>
      cases move with
      | start =>
          rw [run] at came
          split at came
          · exact ih (startNext_yields yield session) _ came
          · exact ih yield session came
      | finish place =>
          exact ih (modify_forall₂ (fun _ _ => PoolCell.finish_yields) yield place) session came
      | observe =>
          rw [run] at came
          cases seen : seen? cells with
          | none => exact ih yield session (by simpa only [seen] using came)
          | some fault =>
              by_cases load : fault.kind.isLoad = true
              · simp only [seen, load, ↓reduceIte] at came
                cases came
              · simp only [seen, load] at came
                exact ih yield session came

/-- What each task is known to yield holds of its result. -/
theorem results_yields (workers : Int) (schedule : List PoolMove) {items : List β}
    {task : β → Act α} (yields : ∀ item ∈ items, (task item).Yields (holds item)) :
    (results workers schedule (items.map task)).Yields (List.Forall₂ holds items) := by
  intro session values came
  have yield : List.Forall₂ (fun cell item => PoolCell.Yields cell (holds item))
      ((items.map task).map .waiting) (items.map id) := waiting_forall₂ yields
  rw [List.map_id] at yield
  exact run_yields workers schedule yield session came

end

section

variable {β : Type} {task : β → Act α} {outcome : β → Except Fault α} {asked : β → List ApiCall}

/-- **Results in the order of the tasks.** A pool ends as its tasks do when they are looked at one
after the other, whatever its size and its schedule. -/
theorem results_returns (workers : Int) (schedule : List PoolMove) {items : List β}
    (returns : ∀ item ∈ items, (task item).Returns kind (outcome item)) :
    (results workers schedule (items.map task)).Returns kind (items.mapM outcome) := by
  rw [← Outcome.collect_map]
  intro session valid
  exact run_returns workers schedule (waiting_forall₂ returns) session valid

/-- **Calls in some order.** A pool whose tasks all succeed makes the calls of each of them, in the
order in which the schedule starts them. -/
theorem results_calls (workers : Int) (schedule : List PoolMove) {items : List β}
    (returns : ∀ item ∈ items, (task item).Returns kind (outcome item))
    (calls : ∀ item ∈ items, (task item).Calls kind (asked item))
    (succeed : ∀ item ∈ items, ∃ value, outcome item = .ok value) (session : Session)
    (valid : kind session) :
    ((results workers schedule (items.map task)) session).2.calls.Perm
      (session.calls ++ items.flatMap asked) := by
  have settle : List.Forall₂ (PoolCell.Settles kind)
      ((items.map task).map .waiting) (items.map outcome) := waiting_forall₂ returns
  have owe : List.Forall₂ (PoolCell.Owes kind)
      ((items.map task).map .waiting) (items.map asked) := waiting_forall₂ calls
  rw [List.flatMap_def]
  exact run_calls workers schedule settle owe (List.forall_mem_map.mpr succeed) session valid

end

end Pool

namespace NodeMapConfig

variable {β : Type} {task : β → Act α} {outcome : β → Except Fault α} {asked : β → List ApiCall}

/-- Tasks in turn return what their results come to together. -/
theorem inTurn_returns {items : List β}
    (returns : ∀ item ∈ items, (task item).Returns kind (outcome item)) :
    (inTurn (items.map task)).Returns kind (items.mapM outcome) := by
  induction items with
  | nil => exact Act.returns_pure []
  | cons item rest ih =>
      obtain ⟨here, others⟩ := List.forall_mem_cons.mp returns
      rw [List.map_cons, List.mapM_cons, inTurn]
      exact here.bind fun value _ => (ih others).bind fun values _ => Act.returns_pure _

/-- What each task in turn yields holds of its value. -/
theorem inTurn_yields {holds : β → α → Prop} {items : List β}
    (yields : ∀ item ∈ items, (task item).Yields (holds item)) :
    (inTurn (items.map task)).Yields (List.Forall₂ holds items) := by
  induction items with
  | nil => exact Act.yields_pure .nil
  | cons item rest ih =>
      obtain ⟨here, others⟩ := List.forall_mem_cons.mp yields
      rw [List.map_cons, inTurn]
      exact here.bind fun value first => (ih others).bind fun values later =>
        Act.yields_pure (.cons first later)

/-- Tasks in turn that all succeed make all their calls. -/
theorem inTurn_calls {items : List β}
    (returns : ∀ item ∈ items, (task item).Returns kind (outcome item))
    (calls : ∀ item ∈ items, (task item).Calls kind (asked item))
    (succeed : ∀ item ∈ items, ∃ value, outcome item = .ok value) :
    (inTurn (items.map task)).Calls kind (items.flatMap asked) := by
  induction items with
  | nil => exact Act.calls_pure []
  | cons item rest ih =>
      obtain ⟨here, others⟩ := List.forall_mem_cons.mp returns
      obtain ⟨asks, askOthers⟩ := List.forall_mem_cons.mp calls
      obtain ⟨⟨value, succeeded⟩, succeedOthers⟩ := List.forall_mem_cons.mp succeed
      rw [List.map_cons, List.flatMap_cons, inTurn]
      rw [succeeded] at here
      exact asks.bind here ((ih others askOthers succeedOthers).bind_silent fun values =>
        Act.calls_pure _)

/-- Tasks in turn make the calls of the first one that fails and of those before it. -/
theorem inTurn_calls_until {before after : List β} {item : β} {fault : Fault}
    (returns : ∀ other ∈ before, (task other).Returns kind (outcome other))
    (calls : ∀ other ∈ before ++ [item], (task other).Calls kind (asked other))
    (succeed : ∀ other ∈ before, ∃ value, outcome other = .ok value)
    (failed : (task item).Returns kind (.error fault)) :
    (inTurn ((before ++ item :: after).map task)).Calls kind ((before ++ [item]).flatMap asked) := by
  induction before with
  | nil =>
      rw [List.nil_append, List.nil_append, List.map_cons, inTurn, List.flatMap_singleton]
      exact (calls item (List.mem_singleton_self item)).bind_error failed _
  | cons first rest ih =>
      obtain ⟨here, others⟩ := List.forall_mem_cons.mp returns
      obtain ⟨asks, askOthers⟩ := List.forall_mem_cons.mp calls
      obtain ⟨⟨value, succeeded⟩, succeedOthers⟩ := List.forall_mem_cons.mp succeed
      rw [List.cons_append, List.map_cons, List.cons_append, List.flatMap_cons, inTurn]
      rw [succeeded] at here
      exact asks.bind here ((ih others askOthers succeedOthers).bind_silent fun values =>
        Act.calls_pure _)

end NodeMapConfig

end SpotCapacity
