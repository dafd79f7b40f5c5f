import SpotCapacity.Proofs.Conduct

/-!
# The pace of a rate limiter

On an exact clock that never goes back, a limiter of `n` calls in a window grants a call when it
arrives, unless the `n`th grant before it is still inside the window; then the call sleeps once, until
that grant has left the window. The times it keeps are the grants that are still inside the window
(`Limiter.serve_paced`). One call keeps the grants apart (`Limiter.handle_keeps`), whichever calls came
before it, and so no window of time holds more than `n` of them (`Paced.length_filter_le`).
-/

namespace SpotCapacity

namespace Window

/-- The length of a window on an exact clock. -/
def length : Window Rat → Rat
  | .span length => length
  | .seconds count => count

private theorem covers_iff (window : Window Rat) (elapsed : Rat) :
    window.covers elapsed = true ↔ elapsed < window.length := by
  cases window with
  | span length => exact decide_eq_true_iff
  | seconds count => exact decide_eq_true_iff

private theorem rest_eq (window : Window Rat) (elapsed : Rat) :
    window.rest elapsed = .ok (window.length - elapsed) := by
  cases window <;> rfl

end Window

/-- The grant that is a number of grants before the next one. -/
def nthBefore (count : ℕ) (past : List Rat) : Option Rat := past.reverse[count - 1]?

/-- The times that are less than a length before another one. -/
def recent (length now : Rat) (times : List Rat) : List Rat :=
  times.filter fun time => now - time < length

/-- The times in the window that begins at a time. -/
def inWindow (length start : Rat) (times : List Rat) : List Rat :=
  times.filter fun time => start ≤ time ∧ time < start + length

section

variable {count : ℕ} {length now earlier : Rat} {past times : List Rat}

private theorem nthBefore_eq_none_iff (positive : 0 < count) :
    nthBefore count past = none ↔ past.length < count := by
  unfold nthBefore
  rw [List.getElem?_eq_none_iff, List.length_reverse]
  omega

/-- A grant that many grants before the next one splits the grants before it from those after it. -/
theorem split_of_nthBefore (positive : 0 < count) (found : nthBefore count past = some earlier) :
    ∃ older rest, past = older ++ earlier :: rest ∧ rest.length + 1 = count := by
  unfold nthBefore at found
  obtain ⟨inside, here⟩ := List.getElem?_eq_some_iff.mp found
  rw [List.length_reverse] at inside
  have place : past.length - 1 - (count - 1) < past.length := by omega
  rw [List.getElem_reverse] at here
  refine ⟨past.take (past.length - 1 - (count - 1)),
    past.drop (past.length - 1 - (count - 1) + 1), ?_, ?_⟩
  · rw [← here, List.cons_getElem_drop_succ, List.take_append_drop]
  · rw [List.length_drop]
    omega

private theorem recent_recent {before : Rat} (order : before ≤ now) (times : List Rat) :
    recent length now (recent length before times) = recent length now times := by
  unfold recent
  rw [List.filter_filter]
  apply List.filter_congr
  intro time _
  by_cases near : now - time < length
  · have also : before - time < length := by linarith
    simp only [near, also, decide_true, Bool.and_self]
  · simp only [near, decide_false, Bool.false_and]

private theorem recent_eq_self (near : ∀ time ∈ times, now - time < length) :
    recent length now times = times := by
  apply List.filter_eq_self.mpr
  intro time member
  exact decide_eq_true (near time member)

private theorem recent_eq_nil (far : ∀ time ∈ times, length ≤ now - time) :
    recent length now times = [] := by
  apply List.filter_eq_nil_iff.mpr
  intro time member inside
  exact absurd (of_decide_eq_true inside) (not_lt.mpr (far time member))

private theorem recent_append (left right : List Rat) :
    recent length now (left ++ right) = recent length now left ++ recent length now right :=
  List.filter_append ..

/-- A grant is inside the window at its own time. -/
theorem recent_concat (opens : 0 < length) (past : List Rat) :
    recent length now (past ++ [now]) = recent length now past ++ [now] := by
  have alone : recent length now [now] = [now] := by
    apply recent_eq_self
    intro time member
    rw [List.mem_singleton.mp member, sub_self]
    exact opens
  rw [recent_append, alone]

end

/-- Grants in rising order, each at least a length after the one that many grants before it. -/
structure Paced (count : ℕ) (length : Rat) (times : List Rat) : Prop where
  sorted : times.Pairwise (· ≤ ·)
  spaced : ∀ place earlier later, times[place]? = some earlier →
    times[place + count]? = some later → earlier + length ≤ later

namespace Paced

variable {count : ℕ} {length now earlier : Rat} {past times : List Rat}

theorem nil : Paced count length [] where
  sorted := List.Pairwise.nil
  spaced := by
    intro place earlier later found
    cases found

/-- A grant that is a length after the one that many grants before it keeps the pace. -/
theorem concat (paced : Paced count length past) (positive : 0 < count)
    (last : ∀ time ∈ past, time ≤ now)
    (free : ∀ earlier, nthBefore count past = some earlier → length ≤ now - earlier) :
    Paced count length (past ++ [now]) := by
  constructor
  · apply List.pairwise_append.mpr
    refine ⟨paced.sorted, List.pairwise_singleton _ _, ?_⟩
    intro time member other same
    rw [List.mem_singleton.mp same]
    exact last time member
  · intro place earlier later first second
    obtain ⟨inside, -⟩ := List.getElem?_eq_some_iff.mp second
    rw [List.length_append, List.length_singleton] at inside
    rw [List.getElem?_append_left (by omega)] at first
    by_cases old : place + count < past.length
    · rw [List.getElem?_append_left old] at second
      exact paced.spaced place earlier later first second
    · have lengths : place + count = past.length := by omega
      rw [lengths, List.getElem?_concat_length] at second
      obtain rfl := Option.some.inj second
      have found : nthBefore count past = some earlier := by
        unfold nthBefore
        rw [List.getElem?_reverse (by omega), ← first]
        congr 1
        omega
      have apart := free earlier found
      linarith

/-- Times that are pairwise less than the length apart are at most as many as the pace allows. -/
theorem length_filter_le (paced : Paced count length times) {holds : Rat → Bool}
    (near : ∀ earlier later, holds earlier = true → holds later = true → later - earlier < length) :
    (times.filter holds).length ≤ count := by
  by_contra many
  have inside : count < (times.filter holds).length := not_le.mp many
  -- The first of these times and the one `count` places later are at least as far apart among all.
  obtain ⟨place, kept⟩ :=
    List.sublist_iff_exists_orderEmbedding_getElem?_eq.mp (List.filter_sublist (p := holds) (l := times))
  have first : (times.filter holds)[0]? = some (times.filter holds)[0] :=
    List.getElem?_eq_getElem (by omega)
  have second : (times.filter holds)[count]? = some (times.filter holds)[count] :=
    List.getElem?_eq_getElem inside
  have least : holds (times.filter holds)[0] = true :=
    (List.mem_filter.mp (List.getElem_mem (by omega))).2
  have greatest : holds (times.filter holds)[count] = true :=
    (List.mem_filter.mp (List.getElem_mem inside)).2
  rw [kept] at first second
  have steps : place 0 + count ≤ place count := by
    simpa only [add_comm, Nat.add_zero] using place.strictMono.add_le_nat count 0
  obtain ⟨within, last⟩ := List.getElem?_eq_some_iff.mp second
  have between : times[place 0 + count]? = some times[place 0 + count] :=
    List.getElem?_eq_getElem (by omega)
  have apart := paced.spaced _ _ _ first between
  have rising : times[place 0 + count] ≤ times[place count] := by
    rcases Nat.eq_or_lt_of_le steps with same | before
    · simp only [same, le_refl]
    · exact List.pairwise_iff_getElem.mp paced.sorted _ _ (by omega) within before
  have close := near _ _ least greatest
  rw [last] at rising
  linarith

/-- No window of the length of the limiter holds more grants than it allows. -/
theorem length_inWindow_le (paced : Paced count length times) (start : Rat) :
    (inWindow length start times).length ≤ count := by
  apply paced.length_filter_le
  intro earlier later first second
  obtain ⟨after, -⟩ := of_decide_eq_true first
  obtain ⟨-, before⟩ := of_decide_eq_true second
  linarith

/-- A call that finds the grant `count` places before it outside the window finds the window free. -/
theorem length_recent_lt (paced : Paced count length past) (positive : 0 < count)
    (free : ∀ earlier, nthBefore count past = some earlier → length ≤ now - earlier) :
    (recent length now past).length < count := by
  cases found : nthBefore count past with
  | none => exact (List.length_filter_le _ _).trans_lt ((nthBefore_eq_none_iff positive).mp found)
  | some earlier =>
      obtain ⟨older, rest, rfl, size⟩ := split_of_nthBefore positive found
      have far := free earlier found
      have sorted := List.pairwise_append.mp paced.sorted
      have gone : recent length now (older ++ [earlier]) = [] := by
        apply recent_eq_nil
        intro time member
        have before : time ≤ earlier := by
          rcases List.mem_append.mp member with old | same
          · exact sorted.2.2 time old earlier List.mem_cons_self
          · exact (List.mem_singleton.mp same).le
        linarith
      rw [List.append_cons, recent_append, gone, List.nil_append]
      have atMost : (recent length now rest).length ≤ rest.length := List.length_filter_le _ _
      omega

/-- A call that finds the grant `count` places before it inside the window finds this grant and the
later ones, and no others, in the window. -/
theorem recent_of_full (paced : Paced count length past) (positive : 0 < count)
    (last : ∀ time ∈ past, time ≤ now) (found : nthBefore count past = some earlier)
    (near : now - earlier < length) :
    ∃ older rest, past = older ++ earlier :: rest ∧ rest.length + 1 = count ∧
      (∀ time ∈ rest, earlier ≤ time) ∧ recent length now past = earlier :: rest := by
  obtain ⟨older, rest, rfl, size⟩ := split_of_nthBefore positive found
  have sorted := List.pairwise_append.mp paced.sorted
  have later : ∀ time ∈ rest, earlier ≤ time := (List.pairwise_cons.mp sorted.2.1).1
  have gone : recent length now older = [] := by
    apply recent_eq_nil
    intro time member
    -- `count` places after an older grant there is one that is not after the call.
    obtain ⟨place, inside, rfl⟩ := List.getElem_of_mem member
    have whole : place + count < (older ++ earlier :: rest).length := by
      rw [List.length_append, List.length_cons]
      omega
    have apart := paced.spaced place older[place] (older ++ earlier :: rest)[place + count]
      (by rw [List.getElem?_append_left inside, List.getElem?_eq_getElem inside])
      (List.getElem?_eq_getElem whole)
    have before := last _ (List.getElem_mem whole)
    linarith
  refine ⟨older, rest, rfl, size, later, ?_⟩
  rw [recent_append, gone, List.nil_append]
  apply recent_eq_self
  intro time member
  rcases List.mem_cons.mp member with rfl | after
  · exact near
  · have := later time after
    linarith

end Paced

namespace Limiter

variable {limiter : Limiter Rat} {now : Rat} {wake : Rat → Rat}

private theorem prune_calls (limiter : Limiter Rat) (now : Rat) :
    (limiter.prune now).calls = recent limiter.window.length now limiter.calls := by
  unfold recent
  apply List.filter_congr
  intro call _
  exact Bool.eq_iff_iff.mpr ((limiter.window.covers_iff _).trans decide_eq_true_iff.symm)

private theorem oldest?_eq {first : Rat} {rest : List Rat} (least : ∀ time ∈ rest, first ≤ time) :
    oldest? (first :: rest) = some first := by
  have least : rest.foldl (fun least time => if time < least then time else least) first = first := by
    induction rest with
    | nil => rfl
    | cons time rest ih =>
        obtain ⟨here, others⟩ := List.forall_mem_cons.mp least
        rw [List.foldl_cons, if_neg (not_lt.mpr here)]
        exact ih others
  exact congrArg some least

private theorem delay?_of_room (room : (limiter.calls.length : Int) < limiter.maxCalls) :
    limiter.delay? now = .ok none := if_pos room

/-- A limiter whose window is full waits until the oldest call has left the window. -/
theorem delay?_of_full {oldest : Rat} (full : limiter.maxCalls ≤ (limiter.calls.length : Int))
    (least : oldest? limiter.calls = some oldest) :
    limiter.delay? now = .ok (if 0 < limiter.window.length - (now - oldest)
      then some (limiter.window.length - (now - oldest)) else none) := by
  unfold delay?
  rw [if_neg (not_lt.mpr full), least]
  simp only [Window.rest_eq]
  rfl

private theorem acquire_at_once (none : (limiter.prune now).delay? now = .ok none) :
    limiter.acquire now wake = .ok ⟨now, .none, (limiter.prune now).record now⟩ := by
  unfold acquire
  simp only [none]
  rfl

private theorem acquire_delayed {delay : Rat} (some : (limiter.prune now).delay? now = .ok (some delay)) :
    limiter.acquire now wake = .ok ⟨wake delay, .some delay,
      ((limiter.prune now).prune (wake delay)).record (wake delay)⟩ := by
  unfold acquire
  simp only [some]
  rfl

/-- A limiter that keeps the grants that are inside the window at a time on its clock. -/
structure Keeps (limiter : Limiter Rat) (maxCalls : ℕ) (window : Window Rat) (past : List Rat)
    (clock : Rat) : Prop where
  limit : limiter.maxCalls = maxCalls
  span : limiter.window = window
  paced : Paced maxCalls window.length past
  last : ∀ time ∈ past, time ≤ clock
  calls : limiter.calls = recent window.length clock past

variable {maxCalls : ℕ} {window : Window Rat} {past : List Rat} {clock : Rat}

/-- A new limiter keeps the grants of no past. -/
theorem new_keeps (maxCalls : ℕ) (window : Window Rat) (reports : Bool) (clock : Rat) :
    (new maxCalls window reports).Keeps maxCalls window [] clock where
  limit := rfl
  span := rfl
  paced := Paced.nil
  last := fun _ member => absurd member List.not_mem_nil
  calls := rfl

private theorem Keeps.prune (keeps : limiter.Keeps maxCalls window past clock) (forward : clock ≤ now) :
    (limiter.prune now).Keeps maxCalls window past now where
  limit := keeps.limit
  span := keeps.span
  paced := keeps.paced
  last := fun time member => (keeps.last time member).trans forward
  calls := by rw [prune_calls, keeps.span, keeps.calls, recent_recent forward]

/-- A grant is recorded by a limiter in whose window there is room for it. -/
theorem Keeps.record (keeps : limiter.Keeps maxCalls window past now) (limits : 0 < maxCalls)
    (opens : 0 < window.length)
    (free : ∀ earlier, nthBefore maxCalls past = some earlier → window.length ≤ now - earlier) :
    (limiter.record now).Keeps maxCalls window (past ++ [now]) now ∧
      (limiter.record now).calls.length ≤ maxCalls := by
  have calls : (limiter.record now).calls = recent window.length now (past ++ [now]) := by
    rw [recent_concat opens, ← keeps.calls]
    rfl
  refine ⟨⟨keeps.limit, keeps.span, keeps.paced.concat limits keeps.last free, ?_, calls⟩, ?_⟩
  · intro time member
    rcases List.mem_append.mp member with old | same
    · exact keeps.last time old
    · exact (List.mem_singleton.mp same).le
  · have room := keeps.paced.length_recent_lt limits free
    rw [calls, recent_concat opens, List.length_append, List.length_singleton]
    omega

end Limiter

/-- A call that arrives at a time, and how much longer than asked it sleeps if it has to. -/
structure Request where
  arrival : Rat
  oversleep : Rat

/-- A call with its grant. -/
structure Service where
  request : Request
  grant : Grant Rat

namespace Service

def arrival (service : Service) : Rat := service.request.arrival

def time (service : Service) : Rat := service.grant.time

/-- A call arrives on a clock that has not gone back since another one was granted. -/
def After (later earlier : Service) : Prop := earlier.time ≤ later.arrival

end Service

namespace Limiter

/-- One call on an exact clock. -/
def handle (limiter : Limiter Rat) (request : Request) : Except Fault (Grant Rat) :=
  limiter.acquire request.arrival fun delay => request.arrival + (delay + request.oversleep)

/-- Calls that are granted one after the other. -/
def serve (limiter : Limiter Rat) : List Request → Except Fault (List Service)
  | [] => .ok []
  | request :: rest => do
    let grant ← limiter.handle request
    let others ← grant.limiter.serve rest
    return ⟨request, grant⟩ :: others

private theorem handle_granted {limiter : Limiter Rat} (limits : 0 < limiter.maxCalls) (request : Request) :
    ∃ grant, limiter.handle request = .ok grant ∧ grant.limiter.maxCalls = limiter.maxCalls := by
  obtain ⟨delay, waits⟩ :
      ∃ delay, (limiter.prune request.arrival).delay? request.arrival = .ok delay := by
    by_cases room : ((limiter.prune request.arrival).calls.length : Int) < limiter.maxCalls
    · exact ⟨_, delay?_of_room room⟩
    -- A full window of a limiter that admits calls has an oldest call.
    · cases kept : (limiter.prune request.arrival).calls with
      | nil =>
          rw [kept] at room
          exact absurd limits room
      | cons first rest =>
          exact ⟨_, delay?_of_full (not_lt.mp room) (congrArg oldest? kept)⟩
  cases delay with
  | none => exact ⟨_, acquire_at_once waits, rfl⟩
  | some delay => exact ⟨_, acquire_delayed waits, rfl⟩

/-- A limiter that admits calls grants each of them, whatever the clock shows. -/
theorem serve_granted {limiter : Limiter Rat} (limits : 0 < limiter.maxCalls)
    (requests : List Request) :
    ∃ services, limiter.serve requests = .ok services ∧ services.map Service.request = requests := by
  induction requests generalizing limiter with
  | nil => exact ⟨[], rfl, rfl⟩
  | cons request rest ih =>
      obtain ⟨grant, granted, same⟩ := handle_granted limits request
      have still : 0 < grant.limiter.maxCalls := same ▸ limits
      obtain ⟨services, served, requests⟩ := ih still
      refine ⟨⟨request, grant⟩ :: services, ?_, ?_⟩
      · unfold serve
        rw [granted, Outcome.ok_bind, served]
        rfl
      · rw [List.map_cons, requests]

end Limiter

/-- A call is granted by the rule on the grant that is `maxCalls` grants before it. -/
structure Service.Follows (maxCalls : ℕ) (length : Rat) (past : List Rat) (service : Service) :
    Prop where
  atOnce : (∀ earlier, nthBefore maxCalls past = some earlier →
      length ≤ service.arrival - earlier) →
    service.grant.delay = none ∧ service.time = service.arrival
  delayed : ∀ earlier, nthBefore maxCalls past = some earlier →
    service.arrival - earlier < length →
      service.grant.delay = some (earlier + length - service.arrival) ∧
        0 < earlier + length - service.arrival ∧
        service.time = earlier + length + service.request.oversleep
  kept : service.grant.limiter.calls = recent length service.time (past ++ [service.time])
  bounded : service.grant.limiter.calls.length ≤ maxCalls
  least : ∀ time, service.arrival ≤ time →
    (∀ start, (inWindow length start (past ++ [time])).length ≤ maxCalls) →
      service.arrival + service.grant.delay.getD 0 ≤ time

namespace Limiter

variable {limiter : Limiter Rat} {maxCalls : ℕ} {window : Window Rat} {past : List Rat}
  {clock : Rat} {request : Request}

/-- A call that is granted before the window is free would be one too many in it. -/
theorem Keeps.too_many (keeps : limiter.Keeps maxCalls window past clock) (limits : 0 < maxCalls)
    {earlier time : Rat} (found : nthBefore maxCalls past = some earlier) (after : clock ≤ time)
    (early : time < earlier + window.length) :
    maxCalls < (inWindow window.length earlier (past ++ [time])).length := by
  obtain ⟨older, rest, rfl, size⟩ := split_of_nthBefore limits found
  have sorted := (List.pairwise_append.mp keeps.paced.sorted).2.1
  have inside : inWindow window.length earlier (earlier :: rest ++ [time]) =
      earlier :: rest ++ [time] := by
    apply List.filter_eq_self.mpr
    intro other member
    have before : other ≤ time := by
      rcases List.mem_append.mp member with old | same
      · exact (keeps.last other (List.mem_append_right _ old)).trans after
      · exact (List.mem_singleton.mp same).le
    have notBefore : earlier ≤ other := by
      rcases List.mem_append.mp member with old | same
      · rcases List.mem_cons.mp old with rfl | later
        · exact le_rfl
        · exact (List.pairwise_cons.mp sorted).1 other later
      · rw [List.mem_singleton.mp same]
        exact (keeps.last earlier (List.mem_append_right _ List.mem_cons_self)).trans after
    exact decide_eq_true ⟨notBefore, before.trans_lt early⟩
  have whole : inWindow window.length earlier (older ++ earlier :: rest ++ [time]) =
      inWindow window.length earlier older ++ (earlier :: rest ++ [time]) := by
    rw [List.append_assoc]
    exact (List.filter_append ..).trans (congrArg _ inside)
  rw [whole]
  simp only [List.length_append, List.length_cons, List.length_nil]
  omega

/-- **One call.** A call is granted by the rule, and the limiter keeps the grants of its window. -/
theorem handle_keeps (keeps : limiter.Keeps maxCalls window past clock) (limits : 0 < maxCalls)
    (opens : 0 < window.length) (forward : clock ≤ request.arrival) (slept : 0 ≤ request.oversleep) :
    ∃ grant, limiter.handle request = .ok grant ∧
      grant.limiter.Keeps maxCalls window (past ++ [grant.time]) grant.time ∧
      Service.Follows maxCalls window.length past ⟨request, grant⟩ := by
  obtain ⟨arrival, oversleep⟩ := request
  dsimp only at forward slept
  have pruned := keeps.prune forward
  by_cases free : ∀ earlier, nthBefore maxCalls past = some earlier →
      window.length ≤ arrival - earlier
  -- The window has room: the call is granted when it arrives.
  · have room : ((limiter.prune arrival).calls.length : Int) < limiter.maxCalls := by
      rw [pruned.calls, keeps.limit]
      exact_mod_cast keeps.paced.length_recent_lt limits free
    obtain ⟨recorded, bounded⟩ := pruned.record limits opens free
    refine ⟨_, acquire_at_once (delay?_of_room room), recorded, ?_⟩
    refine ⟨fun _ => ⟨rfl, rfl⟩, ?_, recorded.calls, bounded, ?_⟩
    · intro earlier found near
      exact absurd (free earlier found) (not_le.mpr near)
    · intro time after _
      simpa only [Option.getD_none, add_zero] using after
  -- The window is full: the call sleeps until its oldest grant has left it.
  · push Not at free
    obtain ⟨earlier, found, near⟩ := free
    obtain ⟨older, rest, whole, size, later, full⟩ :=
      keeps.paced.recent_of_full limits pruned.last found near
    have many : limiter.maxCalls ≤ ((limiter.prune arrival).calls.length : Int) := by
      rw [pruned.calls, full, keeps.limit, List.length_cons, size]
    have least : oldest? (limiter.prune arrival).calls = some earlier := by
      rw [pruned.calls, full, oldest?_eq later]
    have positive : 0 < earlier + window.length - arrival := by linarith
    have shorter : window.length - (arrival - earlier) = earlier + window.length - arrival := by ring
    have woken : arrival + (earlier + window.length - arrival + oversleep) =
        earlier + window.length + oversleep := by ring
    have waits : (limiter.prune arrival).delay? arrival =
        .ok (some (earlier + window.length - arrival)) := by
      rw [delay?_of_full many least, pruned.span, shorter, if_pos positive]
    have acquired : limiter.acquire arrival (fun delay => arrival + (delay + oversleep)) = _ :=
      acquire_delayed waits
    rw [woken] at acquired
    have onwards : arrival ≤ earlier + window.length + oversleep := by linarith
    have left : ∀ other, nthBefore maxCalls past = some other →
        window.length ≤ earlier + window.length + oversleep - other := by
      intro other same
      obtain rfl := Option.some.inj (found.symm.trans same)
      linarith
    obtain ⟨recorded, bounded⟩ := (pruned.prune onwards).record limits opens left
    refine ⟨_, acquired, recorded, ?_⟩
    refine ⟨?_, ?_, recorded.calls, bounded, ?_⟩
    · intro free
      exact absurd (free earlier found) (not_le.mpr near)
    · intro other same _
      obtain rfl := Option.some.inj (found.symm.trans same)
      exact ⟨rfl, positive, rfl⟩
    · intro time after allowed
      have reached : earlier + window.length ≤ time := by
        by_contra early
        exact absurd (allowed earlier)
          (not_le.mpr (pruned.too_many limits found after (not_le.mp early)))
      have waited : arrival + (earlier + window.length - arrival) = earlier + window.length := by ring
      exact waited.trans_le reached

/-- Calls that are served by a limiter that has served others before. -/
theorem serve_follows (keeps : limiter.Keeps maxCalls window past clock) (limits : 0 < maxCalls)
    (opens : 0 < window.length) {requests : List Request}
    (slept : ∀ request ∈ requests, 0 ≤ request.oversleep) {services : List Service}
    (served : limiter.serve requests = .ok services)
    (begins : ∀ first ∈ services.head?, clock ≤ first.arrival)
    (forward : services.IsChain fun earlier later => later.After earlier) :
    (∀ before service after, services = before ++ service :: after →
        service.Follows maxCalls window.length (past ++ before.map Service.time)) ∧
      Paced maxCalls window.length (past ++ services.map Service.time) := by
  induction requests generalizing limiter past clock services with
  | nil =>
      obtain rfl := Except.ok.inj served
      refine ⟨?_, ?_⟩
      · intro before service after split
        exact absurd split.symm (List.append_ne_nil_of_right_ne_nil _ (List.cons_ne_nil _ _))
      · rw [List.map_nil, List.append_nil]
        exact keeps.paced
  | cons request rest ih =>
      obtain ⟨here, others⟩ := List.forall_mem_cons.mp slept
      obtain ⟨grant, granted, later⟩ := Outcome.bind_eq_ok_iff.mp served
      obtain ⟨services, servedLater, same⟩ := Outcome.bind_eq_ok_iff.mp later
      obtain rfl := Except.ok.inj same
      obtain ⟨continues, chain⟩ := List.isChain_cons.mp forward
      have arrived : clock ≤ request.arrival := begins ⟨request, grant⟩ rfl
      obtain ⟨first, handled, kept, follows⟩ := handle_keeps keeps limits opens arrived here
      obtain rfl := Except.ok.inj (granted.symm.trans handled)
      obtain ⟨each, paced⟩ := ih kept others servedLater continues chain
      refine ⟨?_, ?_⟩
      · intro before service after split
        cases before with
        | nil =>
            obtain ⟨rfl, -⟩ := List.cons.inj split
            rw [List.map_nil, List.append_nil]
            exact follows
        | cons first before =>
            obtain ⟨rfl, later⟩ := List.cons.inj split
            rw [List.map_cons, List.append_cons]
            exact each before service after later
      · rw [List.map_cons, List.append_cons]
        exact paced

end Limiter

namespace Act

variable {session : Session} {limiter : Limiter Double} {grant : Grant Double}

/-- A session whose limiter grants a call at once notes nothing; one that has to wait logs the delay,
reports it if the limiter does so, and sleeps. -/
theorem throttle_trace (limited : session.limiter = some limiter)
    (acquired : limiter.acquire session.now
      (fun delay => session.now + (delay + session.oversleep)) = .ok grant) :
    ∃ records : List LogRecord, (throttle session).2.trace = session.trace ++ (records.map Event.logged ++
      ((if limiter.reports then grant.delay.toList.map Event.delayed else []) ++
        grant.delay.toList.map Event.slept)) := by
  have read : (get : Act Session) session = (.ok session, session) := rfl
  have pruned : change (fun session => { session with limiter := some (limiter.prune session.now) })
      session = (.ok (), { session with limiter := some (limiter.prune session.now) }) := rfl
  unfold throttle
  rw [bind_of_ok read, limited]
  dsimp only
  rw [bind_of_ok pruned, acquired]
  dsimp only
  cases grant.delay with
  | none =>
      refine ⟨[], ?_⟩
      simp only [Option.toList_none, List.map_nil, ite_self, List.append_nil]
      rfl
  | some delay =>
      refine ⟨[⟨Severity.debug.level, Component.rateLimit.logger,
        s!"Rate limit reached, sleeping {delay.fixed 2}s", false⟩], ?_⟩
      simp only [Option.toList_some, List.map_cons, List.map_nil, ← List.append_assoc]
      cases limiter.reports with
      | true => rfl
      | false =>
          simp only [Bool.false_eq_true, ↓reduceIte, List.append_nil]
          rfl

private theorem throttle_of_grant (limited : session.limiter = some limiter)
    (acquired : limiter.acquire session.now
      (fun delay => session.now + (delay + session.oversleep)) = .ok grant) :
    (throttle session).2.sleeps = session.sleeps ++ grant.delay.toList ∧
      (throttle session).2.delays =
        session.delays ++ (if limiter.reports then grant.delay.toList else []) := by
  obtain ⟨records, trace⟩ := throttle_trace limited acquired
  unfold Session.sleeps Session.delays
  rw [trace]
  simp only [List.filterMap_append, List.filterMap_map]
  cases limiter.reports <;> cases grant.delay <;> simp

end Act

namespace Limiter

variable {maxCalls : ℕ} {window : Window Rat}

/-- **The pace of a limiter.** A limiter grants every call, whatever the clock shows. On a clock that
never goes back, a call is granted when it arrives if fewer than `maxCalls` calls were granted before or
the grant that many places before it is outside the window, and otherwise after one sleep until that
grant has left the window, no sooner and no later than it has to. The limiter keeps the grants that are
inside the window, never more than `maxCalls`, and no window of time holds more grants than that. In a
session a delay is slept once and reported once. -/
theorem serve_paced (limits : 0 < maxCalls) (opens : 0 < window.length) (reports : Bool)
    (requests : List Request) (slept : ∀ request ∈ requests, 0 ≤ request.oversleep) :
    ∃ services, (new maxCalls window reports).serve requests = .ok services ∧
      services.map Service.request = requests ∧
      ((services.IsChain fun earlier later => later.After earlier) →
        (∀ before service after, services = before ++ service :: after →
          service.Follows maxCalls window.length (before.map Service.time)) ∧
        ∀ start, (inWindow window.length start (services.map Service.time)).length ≤ maxCalls) ∧
      ∀ (session : Session) (limiter : Limiter Double) (grant : Grant Double),
        session.limiter = some limiter →
        limiter.acquire session.now (fun delay => session.now + (delay + session.oversleep)) =
          .ok grant →
        (Act.throttle session).2.sleeps = session.sleeps ++ grant.delay.toList ∧
          (Act.throttle session).2.delays =
            session.delays ++ (if limiter.reports then grant.delay.toList else []) := by
  have admits : 0 < (new maxCalls window reports).maxCalls := Int.natCast_pos.mpr limits
  obtain ⟨services, served, same⟩ := serve_granted admits requests
  refine ⟨services, served, same, ?_, ?_⟩
  · intro forward
    have begins : ∀ first ∈ services.head?,
        (services.head?.elim 0 Service.arrival) ≤ first.arrival := by
      intro first here
      rw [Option.mem_def.mp here]
      exact le_rfl
    obtain ⟨each, paced⟩ := serve_follows (new_keeps maxCalls window reports _) limits opens slept
      served begins forward
    exact ⟨each, paced.length_inWindow_le⟩
  · intro session limiter grant limited acquired
    exact Act.throttle_of_grant limited acquired

/-- Three calls at once and a late one, in windows of one second with two calls: the third sleeps for a
second, and half a second longer. -/
theorem serve_paced_burst :
    let requests : List Request := [⟨0, 0⟩, ⟨0, 0⟩, ⟨0, 1 / 2⟩, ⟨3, 0⟩]
    0 < (Window.span 1 : Window Rat).length ∧ (∀ request ∈ requests, 0 ≤ request.oversleep) ∧
      ∃ services, (new 2 (.span 1) true).serve requests = .ok services ∧
        (services.IsChain fun earlier later => later.After earlier) ∧
        services.map Service.time = [0, 0, 3 / 2, 3] ∧
        services.map (fun service => service.grant.delay) = [none, none, some 1, none] ∧
        ∀ start, (inWindow 1 start (services.map Service.time)).length ≤ 2 := by
  intro requests
  have limits : 0 < 2 := by decide
  have opens : 0 < (Window.span 1 : Window Rat).length := by decide +kernel
  have slept : ∀ request ∈ requests, 0 ≤ request.oversleep := by decide +kernel
  obtain ⟨services, served, same, paced, -⟩ := serve_paced limits opens true requests slept
  have served : (new 2 (.span 1) true).serve requests = .ok services := served
  have times : ((new 2 (.span 1) true).serve requests).map (List.map Service.time) =
      .ok [0, 0, 3 / 2, 3] := by decide +kernel
  have delays : ((new 2 (.span 1) true).serve requests).map
      (List.map fun service => service.grant.delay) = .ok [none, none, some 1, none] := by
    decide +kernel
  have chain : ((new 2 (.span 1) true).serve requests).map
      (List.map fun service => (service.arrival, service.time)) =
        .ok [(0, 0), (0, 0), (0, 3 / 2), (3, 3)] := by decide +kernel
  rw [served] at times delays chain
  have forward : services.IsChain fun earlier later => later.After earlier := by
    have pairs : (services.map fun service => (service.arrival, service.time)).IsChain
        fun earlier later => earlier.2 ≤ later.1 := by
      rw [Except.ok.inj chain]
      decide +kernel
    exact (List.isChain_map _).mp pairs
  exact ⟨opens, slept, services, served, forward, Except.ok.inj times, Except.ok.inj delays,
    (paced forward).2⟩

end Limiter

end SpotCapacity
