import SpotCapacity.Proofs.Plan.Store

/-!
# Plans on shared pod lists

A plan carried out on records that share their pod lists: its lists hold addresses, and a copy of a
list holds the addresses of copies. Step by step it has the outcomes and shows the nodes of the plan
whose lists hold the nodes themselves (`Board.run_shows`). Each of its steps is a step on the store, or does
nothing (`Board.store_step`), so what is shown of steps on the store holds of plans.
-/

namespace SpotCapacity

/-- Named lists of addresses in a store. -/
structure Board where
  store : Store
  names : List (String × List Nat)

/-- Takes the steps of a plan, one after the other, and keeps their outcomes. -/
def Plan.run (plan : Plan) : List PlanStep → List StepOutcome × Plan
  | [] => ([], plan)
  | step :: rest =>
    ((plan.step step).1 :: (Plan.run (plan.step step).2 rest).1,
      (Plan.run (plan.step step).2 rest).2)

/-- A step that makes no node without counting its pods. -/
def PlanStep.Counted : PlanStep → Prop
  | .start _ _ => False
  | _ => True

/-- The plan of the lists of a map, by the names of their classes. -/
def NodeMap.plan (map : NodeMap) : Plan :=
  [(NodeClass.spot.name, map.spot), (NodeClass.onDemand.name, map.onDemand)]

namespace Board

def address? (board : Board) (list : String) (index : Nat) : Option Nat :=
  (board.names.lookup list).bind (·[index]?)

def stepAt (board : Board) (list : String) (index : Nat) (step : Nat → StoreStep) :
    StepOutcome × Board :=
  match board.address? list index with
  | none => (.missing, board)
  | some address =>
    ((board.store.step (step address)).1, { board with store := (board.store.step (step address)).2 })

def step (board : Board) : PlanStep → StepOutcome × Board
  | .start list node =>
    (.done, ⟨board.store.insert (.uncounted node),
      Keyed.put list [board.store.records.length] board.names⟩)
  | .account list node pods =>
    match board.store.step (.ofPods node pods) with
    | (.done, store) =>
      (.done, ⟨store, Keyed.put list [board.store.records.length] board.names⟩)
    | (outcome, store) => (outcome, { board with store := store })
  | .copyAll source target =>
    match board.names.lookup source with
    | none => (.missing, board)
    | some addresses =>
      ((board.store.step (.copyAll addresses)).1, ⟨(board.store.step (.copyAll addresses)).2,
        Keyed.put target (List.range' board.store.records.length addresses.length) board.names⟩)
  | .addPod list index pod => board.stepAt list index (.addPod · pod)
  | .sortPods list index => board.stepAt list index .sortPods
  | .move source index pod target targetIndex =>
    match ((board.address? source index).bind board.store.read?).bind (·.pods[pod]?) with
    | none => (.missing, board)
    | some pod => board.stepAt target targetIndex (.addPod · pod)

/-- The lists of a built map, by the names of their classes. -/
def ofMap (map : NodeMap) : Board where
  store := .ofInfos (map.spot ++ map.onDemand)
  names := [(NodeClass.spot.name, List.range' 0 map.spot.length),
    (NodeClass.onDemand.name, List.range' map.spot.length map.onDemand.length)]

/-- Takes steps, one after the other, and keeps their outcomes. -/
def run (board : Board) : List PlanStep → List StepOutcome × Board
  | [] => ([], board)
  | step :: rest =>
    ((board.step step).1 :: ((board.step step).2.run rest).1, ((board.step step).2.run rest).2)

def Reads (store : Store) : List Nat → List NodeInfo → Prop :=
  List.Forall₂ fun address info => store.read? address = some info

/-- The lists of a board show the lists of a plan, and no node is in two places. -/
structure Shows (board : Board) (plan : Plan) : Prop where
  lists : List.Forall₂ (fun named listed =>
    named.1 = listed.1 ∧ Reads board.store named.2 listed.2) board.names plan
  apart : (board.names.flatMap (·.2)).Nodup

private theorem Reads.inside {store : Store} {addresses : List Nat} {infos : List NodeInfo}
    (reads : Reads store addresses infos) :
    ∀ address ∈ addresses, address < store.records.length := by
  induction reads with
  | nil => exact fun _ member => absurd member List.not_mem_nil
  | cons here rest ih =>
      refine List.forall_mem_cons.mpr ⟨?_, ih⟩
      exact (Store.length_infos _) ▸ (List.getElem?_eq_some_iff.mp here).1

private theorem Reads.filterMap {store : Store} {addresses : List Nat} {infos : List NodeInfo}
    (reads : Reads store addresses infos) : addresses.filterMap (store.infos[·]?) = infos := by
  induction reads with
  | nil => rfl
  | cons here rest ih =>
      have here : store.infos[_]? = some _ := here
      rw [List.filterMap_cons_some here, ih]

/-- Nodes that are added are read at the addresses that follow. -/
theorem reads_range' {store : Store} {before added : List NodeInfo}
    (grown : store.infos = before ++ added) :
    Reads store (List.range' before.length added.length) added := by
  induction added generalizing before with
  | nil => exact .nil
  | cons info rest ih =>
      refine .cons ?_ ?_
      · rw [Store.read?, grown, List.getElem?_append_right (Nat.le_refl _), Nat.sub_self]
        rfl
      · have next : store.infos = (before ++ [info]) ++ rest := by
          rw [grown, List.append_assoc, List.singleton_append]
        have later := ih next
        rw [List.length_append, List.length_singleton] at later
        exact later

/-- What is read at old addresses stays when nodes are added. -/
theorem Reads.grow {store later : Store} {added : List NodeInfo}
    (grown : later.infos = store.infos ++ added) {addresses : List Nat} {infos : List NodeInfo}
    (reads : Reads store addresses infos) : Reads later addresses infos := by
  refine reads.imp fun address info here => ?_
  rw [Store.read?, grown, List.getElem?_append_left (List.getElem?_eq_some_iff.mp here).1]
  exact here

/-- A node that changes is read where it was, and all other nodes stay. -/
theorem Reads.set_of_not_mem {store later : Store} {address : Nat} {info : NodeInfo}
    (changed : later.infos = store.infos.set address info) {addresses : List Nat}
    {infos : List NodeInfo} (reads : Reads store addresses infos) (absent : address ∉ addresses) :
    Reads later addresses infos := by
  induction reads with
  | nil => exact .nil
  | @cons other value addresses infos here rest ih =>
      obtain ⟨different, absent⟩ := List.ne_and_not_mem_of_not_mem_cons absent
      refine .cons ?_ (ih absent)
      rw [Store.read?, changed, List.getElem?_set_ne different]
      exact here

private theorem Reads.set {store later : Store} {address : Nat} {info : NodeInfo}
    (changed : later.infos = store.infos.set address info) {addresses : List Nat}
    {infos : List NodeInfo} (reads : Reads store addresses infos) (apart : addresses.Nodup)
    {index : Nat} (named : addresses[index]? = some address) :
    Reads later addresses (infos.set index info) := by
  induction reads generalizing index with
  | nil => cases named
  | @cons other value addresses infos here rest ih =>
      obtain ⟨absent, apart⟩ := List.nodup_cons.mp apart
      cases index with
      | zero =>
          cases named
          refine .cons ?_ (Reads.set_of_not_mem changed rest absent)
          rw [Store.read?, changed]
          exact List.getElem?_set_self (List.getElem?_eq_some_iff.mp here).1
      | succ index =>
          have different : address ≠ other := by
            rintro rfl
            exact absent (List.mem_of_getElem? named)
          refine .cons ?_ (ih apart named)
          rw [Store.read?, changed, List.getElem?_set_ne different]
          exact here

section

variable {store : Store} {names : List (String × List Nat)} {plan : Plan}
  (lists : List.Forall₂ (fun named listed =>
    named.1 = listed.1 ∧ Reads store named.2 listed.2) names plan)

include lists

private theorem lookup_shown (list : String) :
    (names.lookup list = none ∧ plan.lookup list = none) ∨
      ∃ addresses infos, names.lookup list = some addresses ∧ plan.lookup list = some infos ∧
        Reads store addresses infos := by
  induction lists with
  | nil => exact .inl ⟨rfl, rfl⟩
  | @cons named listed names plan here rest ih =>
      obtain ⟨name, addresses⟩ := named
      obtain ⟨other, infos⟩ := listed
      obtain ⟨rfl, reads⟩ := here
      cases same : list == name with
      | true =>
          exact .inr ⟨addresses, infos, by simp only [List.lookup_cons, same],
            by simp only [List.lookup_cons, same], reads⟩
      | false =>
          simp only [List.lookup_cons, same]
          exact ih

private theorem put_shown (list : String) {addresses : List Nat} {infos : List NodeInfo}
    (reads : Reads store addresses infos) :
    List.Forall₂ (fun named listed => named.1 = listed.1 ∧ Reads store named.2 listed.2)
      (Keyed.put list addresses names) (Keyed.put list infos plan) := by
  induction lists with
  | nil => exact .cons ⟨rfl, reads⟩ .nil
  | @cons named listed names plan here rest ih =>
      obtain ⟨name, old⟩ := named
      obtain ⟨other, shown⟩ := listed
      obtain ⟨rfl, before⟩ := here
      rw [Keyed.put, Keyed.put]
      split
      · exact .cons ⟨rfl, reads⟩ rest
      · exact .cons ⟨rfl, before⟩ ih

private theorem keep_shown {later : Store} {address : Nat} {info : NodeInfo}
    (changed : later.infos = store.infos.set address info)
    (absent : address ∉ names.flatMap (·.2)) :
    List.Forall₂ (fun named listed => named.1 = listed.1 ∧ Reads later named.2 listed.2)
      names plan := by
  induction lists with
  | nil => exact .nil
  | cons here rest ih =>
      rw [List.flatMap_cons, List.mem_append, not_or] at absent
      exact .cons ⟨here.1, here.2.set_of_not_mem changed absent.1⟩ (ih absent.2)

private theorem set_shown {later : Store} {address : Nat} {info : NodeInfo}
    (changed : later.infos = store.infos.set address info)
    (apart : (names.flatMap (·.2)).Nodup) {list : String} {index : Nat} {addresses : List Nat}
    {infos : List NodeInfo} (found : names.lookup list = some addresses)
    (shown : plan.lookup list = some infos) (named : addresses[index]? = some address) :
    List.Forall₂ (fun named listed => named.1 = listed.1 ∧ Reads later named.2 listed.2)
      names (Keyed.put list (infos.set index info) plan) := by
  have member : address ∈ addresses := List.mem_of_getElem? named
  induction lists with
  | nil => cases found
  | @cons entry listed names plan here rest ih =>
      obtain ⟨name, others⟩ := entry
      obtain ⟨other, values⟩ := listed
      obtain ⟨rfl, reads⟩ := here
      rw [List.flatMap_cons] at apart
      obtain ⟨first, others_apart, disjoint⟩ := List.nodup_append.mp apart
      by_cases same : name = list
      · subst same
        rw [List.lookup_cons_self] at found shown
        cases found
        cases shown
        rw [Keyed.put, if_pos BEq.rfl]
        refine .cons ⟨rfl, reads.set changed first named⟩ (keep_shown rest changed ?_)
        exact fun also => disjoint address member address also rfl
      · have missed : (list == name) = false := beq_eq_false_iff_ne.mpr (Ne.symm same)
        simp only [List.lookup_cons, missed] at found shown
        rw [Keyed.put, if_neg (by simpa using same)]
        refine .cons ⟨rfl, reads.set_of_not_mem changed ?_⟩ (ih others_apart found shown)
        have inside : (list, addresses) ∈ names := by
          obtain ⟨before, after, rfl, -⟩ := List.lookup_eq_some_iff.mp found
          simp
        exact fun also =>
          disjoint address also address (List.mem_flatMap.mpr ⟨_, inside, member⟩) rfl

end

/-- New addresses do not bring a node into two places. -/
theorem mem_flatMap_put {list : String} {addresses : List Nat} {names : List (String × List Nat)}
    {address : Nat} (member : address ∈ (Keyed.put list addresses names).flatMap (·.2)) :
    address ∈ addresses ∨ address ∈ names.flatMap (·.2) := by
  induction names with
  | nil => simpa [Keyed.put] using member
  | cons entry rest ih =>
      obtain ⟨name, old⟩ := entry
      rw [Keyed.put] at member
      rw [List.flatMap_cons, List.mem_append]
      split at member
      · rw [List.flatMap_cons, List.mem_append] at member
        exact member.imp_right .inr
      · rw [List.flatMap_cons, List.mem_append] at member
        cases member with
        | inl here => exact .inr (.inl here)
        | inr later => exact (ih later).imp_right .inr

private theorem nodup_flatMap_put {list : String} {addresses : List Nat}
    {names : List (String × List Nat)} (apart : (names.flatMap (·.2)).Nodup)
    (new : addresses.Nodup) (fresh : ∀ address ∈ addresses, address ∉ names.flatMap (·.2)) :
    ((Keyed.put list addresses names).flatMap (·.2)).Nodup := by
  induction names with
  | nil => simpa [Keyed.put] using new
  | cons entry rest ih =>
      obtain ⟨name, old⟩ := entry
      rw [List.flatMap_cons, List.nodup_append] at apart
      obtain ⟨first, others, disjoint⟩ := apart
      have freshLater : ∀ address ∈ addresses, address ∉ rest.flatMap (·.2) :=
        fun address member later => fresh address member (List.mem_append_right _ later)
      rw [Keyed.put]
      split
      · rw [List.flatMap_cons, List.nodup_append]
        exact ⟨new, others, fun left inLeft right inRight same =>
          freshLater left inLeft (same ▸ inRight)⟩
      · rw [List.flatMap_cons, List.nodup_append]
        refine ⟨first, ih others freshLater, fun left inLeft right inRight same => ?_⟩
        subst same
        cases mem_flatMap_put inRight with
        | inl isNew => exact fresh left isNew (List.mem_append_left _ inLeft)
        | inr isOld => exact disjoint left inLeft left isOld rfl

namespace Shows

variable {board : Board} {plan : Plan}

private theorem inside (shows : board.Shows plan) :
    ∀ address ∈ board.names.flatMap (·.2), address < board.store.records.length := by
  have each := shows.lists
  clear shows
  generalize board.names = names at each ⊢
  induction each with
  | nil => exact fun _ member => absurd member List.not_mem_nil
  | cons here rest ih =>
      intro address member
      rw [List.flatMap_cons, List.mem_append] at member
      cases member with
      | inl first => exact here.2.inside address first
      | inr later => exact ih address later

/-- A place of the board and the same place of the plan. -/
theorem place (shows : board.Shows plan) (list : String) (index : Nat) :
    (board.address? list index = none ∧ plan.info? list index = none) ∨
      ∃ address info, board.address? list index = some address ∧
        plan.info? list index = some info ∧ board.store.read? address = some info := by
  rw [address?, Plan.info?]
  obtain ⟨missed, absent⟩ | ⟨addresses, infos, found, shown, reads⟩ :=
    lookup_shown shows.lists list
  · exact .inl ⟨by rw [missed]; rfl, by rw [absent]; rfl⟩
  · rw [found, shown, Option.bind_some, Option.bind_some]
    by_cases within : index < addresses.length
    · have also : index < infos.length := reads.length_eq ▸ within
      exact .inr ⟨_, _, List.getElem?_eq_getElem within, List.getElem?_eq_getElem also,
        reads.get within also⟩
    · have beyond := Nat.le_of_not_lt within
      exact .inl ⟨List.getElem?_eq_none beyond, List.getElem?_eq_none (reads.length_eq ▸ beyond)⟩

/-- A node that changes in the store changes at its place in the plan, and nowhere else. -/
theorem rebind (shows : board.Shows plan) {list : String} {index address : Nat}
    (named : board.address? list index = some address) (info : NodeInfo) :
    Shows { board with store := board.store.rebind address info } (plan.setInfo list index info) := by
  refine ⟨?_, shows.apart⟩
  have changed := board.store.infos_rebind address info
  rw [address?, Option.bind_eq_some_iff] at named
  obtain ⟨addresses, found, named⟩ := named
  obtain ⟨missed, -⟩ | ⟨_, infos, also, shown, -⟩ := lookup_shown shows.lists list
  · cases missed.symm.trans found
  · rw [Plan.setInfo, shown]
    exact set_shown shows.lists changed shows.apart found shown named

/-- A list of new nodes takes the place of a list. -/
theorem put (shows : board.Shows plan) (list : String) {later : Store} {added : List NodeInfo}
    (grown : later.infos = board.store.infos ++ added) :
    Shows ⟨later, Keyed.put list (List.range' board.store.records.length added.length) board.names⟩
      (Keyed.put list added plan) := by
  have new : Reads later (List.range' board.store.records.length added.length) added := by
    rw [← Store.length_infos]
    exact reads_range' grown
  refine ⟨put_shown (shows.lists.imp fun _ _ here => ⟨here.1, here.2.grow grown⟩) list new, ?_⟩
  refine nodup_flatMap_put shows.apart (List.nodup_range' ..) fun address isNew isOld => ?_
  have below := shows.inside address isOld
  have above := (List.mem_range'_1.mp isNew).1
  omega

/-- An addition has the same outcome on the board and in the plan. -/
theorem addPod (shows : board.Shows plan) (list : String) (index : Nat) (pod : Pod) :
    (board.stepAt list index (.addPod · pod)).1 = (plan.addPod list index pod).1 ∧
      (board.stepAt list index (.addPod · pod)).2.Shows (plan.addPod list index pod).2 := by
  rw [stepAt, Plan.addPod]
  obtain ⟨missed, absent⟩ | ⟨address, info, named, shown, here⟩ := shows.place list index
  · rw [missed, absent]
    exact ⟨rfl, shows⟩
  · rw [named, shown]
    rcases added : info.addPod pod with ⟨fault | done, changed⟩
    · simp only [added, Store.step_addPod_of_error here added, true_and]
      exact shows.rebind named changed
    · simp only [added, Store.step_addPod_of_ok here added, true_and]
      exact shows.rebind named changed

end Shows

/-- **Sharing does not show.** A step has the outcome that it has on lists that hold the nodes
themselves, and shows the same nodes after it. -/
theorem step_shows {board : Board} {plan : Plan} (shows : board.Shows plan) (step : PlanStep) :
    (board.step step).1 = (plan.step step).1 ∧ (board.step step).2.Shows (plan.step step).2 := by
  cases step with
  | start list node =>
      exact ⟨rfl, shows.put list (board.store.infos_insert (.uncounted node))⟩
  | account list node pods =>
      rw [Board.step, Plan.step]
      cases account : NodeInfo.ofPods node pods with
      | error fault =>
          rw [Store.step_ofPods_of_error account]
          exact ⟨rfl, shows⟩
      | ok info =>
          rw [Store.step_ofPods_of_ok account]
          exact ⟨rfl, shows.put list (board.store.infos_insert info)⟩
  | copyAll source target =>
      rw [Board.step, Plan.step]
      obtain ⟨missed, absent⟩ | ⟨addresses, infos, found, shown, reads⟩ :=
        lookup_shown shows.lists source
      · rw [missed, absent]
        exact ⟨rfl, shows⟩
      · have grown := board.store.infos_copyAll addresses
        rw [reads.filterMap] at grown
        simp only [found, shown, Store.step, if_pos reads.inside, reads.length_eq, true_and]
        exact shows.put target grown
  | addPod list index pod => exact shows.addPod list index pod
  | sortPods list index =>
      rw [Board.step, Plan.step, stepAt]
      obtain ⟨missed, absent⟩ | ⟨address, info, named, shown, here⟩ := shows.place list index
      · rw [missed, absent]
        exact ⟨rfl, shows⟩
      · rw [named, shown]
        cases order : info.sortPods with
        | error fault =>
            simp only [order, Store.step_sortPods_of_error here order, true_and]
            exact shows
        | ok sorted =>
            simp only [order, Store.step_sortPods_of_ok here order, true_and]
            exact shows.rebind named sorted
  | move source index place target targetIndex =>
      have same : (board.address? source index).bind board.store.read? =
          plan.info? source index := by
        obtain ⟨missed, absent⟩ | ⟨address, info, named, shown, here⟩ := shows.place source index
        · rw [missed, absent, Option.bind_none]
        · rw [named, shown, Option.bind_some, here]
      rw [Board.step, Plan.step, same]
      cases (plan.info? source index).bind (·.pods[place]?) with
      | none => exact ⟨rfl, shows⟩
      | some pod => exact shows.addPod target targetIndex pod

/-- The board of a map shows the plan of the map. -/
theorem ofMap_shows (map : NodeMap) : (ofMap map).Shows map.plan := by
  have whole : (ofMap map).store.infos = map.spot ++ map.onDemand := Store.infos_ofInfos _
  have alone : (Store.ofInfos map.spot).infos = [] ++ map.spot := Store.infos_ofInfos _
  have grown : (ofMap map).store.infos = (Store.ofInfos map.spot).infos ++ map.onDemand := by
    rw [whole, alone, List.nil_append]
  have spot : Reads (ofMap map).store (List.range' 0 map.spot.length) map.spot :=
    (reads_range' alone).grow grown
  have onDemand : Reads (ofMap map).store
      (List.range' map.spot.length map.onDemand.length) map.onDemand := reads_range' whole
  refine ⟨.cons ⟨rfl, spot⟩ (.cons ⟨rfl, onDemand⟩ .nil), ?_⟩
  simp only [ofMap, List.flatMap_cons, List.flatMap_nil, List.append_nil]
  have joined : List.range' 0 map.spot.length ++ List.range' map.spot.length map.onDemand.length =
      List.range' 0 (map.spot.length + map.onDemand.length) := by
    simpa only [Nat.zero_add] using
      @List.range'_append_1 0 map.spot.length map.onDemand.length
  rw [joined]
  exact List.nodup_range' ..

/-- **Sharing never shows.** -/
theorem run_shows {board : Board} {plan : Plan} (shows : board.Shows plan)
    (steps : List PlanStep) :
    (board.run steps).1 = (plan.run steps).1 ∧ (board.run steps).2.Shows (plan.run steps).2 := by
  induction steps generalizing board plan with
  | nil => exact ⟨rfl, shows⟩
  | cons step rest ih =>
      obtain ⟨outcome, later⟩ := step_shows shows step
      obtain ⟨outcomes, last⟩ := ih later
      exact ⟨congrArg₂ List.cons outcome outcomes, last⟩

/-- Nothing is on a board without lists. -/
theorem empty_shows : Shows ⟨.empty, []⟩ [] := ⟨.nil, .nil⟩

private theorem store_stepAt (board : Board) (list : String) (index : Nat) (step : Nat → StoreStep) :
    (board.stepAt list index step).2.store = board.store ∨
      ∃ taken, (board.stepAt list index step).2.store = (board.store.step taken).2 := by
  rw [stepAt]
  cases board.address? list index with
  | none => exact .inl rfl
  | some address => exact .inr ⟨step address, rfl⟩

/-- A step that counts the pods of the nodes it makes is a step on the store, or does nothing. -/
theorem store_step (board : Board) {step : PlanStep} (counted : step.Counted) :
    (board.step step).2.store = board.store ∨
      ∃ taken, (board.step step).2.store = (board.store.step taken).2 := by
  cases step with
  | start list node => cases counted
  | account list node pods =>
      refine .inr ⟨.ofPods node pods, ?_⟩
      rw [Board.step]
      rcases board.store.step (.ofPods node pods) with ⟨_ | _ | _, store⟩ <;> rfl
  | copyAll source target =>
      rw [Board.step]
      cases board.names.lookup source with
      | none => exact .inl rfl
      | some addresses => exact .inr ⟨.copyAll addresses, rfl⟩
  | addPod list index pod => exact board.store_stepAt list index _
  | sortPods list index => exact board.store_stepAt list index _
  | move source index place target targetIndex =>
      rw [Board.step]
      cases ((board.address? source index).bind board.store.read?).bind (·.pods[place]?) with
      | none => exact .inl rfl
      | some pod => exact board.store_stepAt target targetIndex _

end Board

end SpotCapacity
