import SpotCapacity.Proofs.Metrics.Withdrawal
import SpotCapacity.Proofs.Monitor

/-!
# How cycles end

A cycle holds the outcome of its build and counts it before the map, if there is one, is shown
(`Monitor.cycle_leaves`). A fault of the build never leaves the cycle. The only fault that does is an
amount that fits no double, met while the map is shown (`Monitor.cycle_eq_error_iff`), and it is the only
one that ends the housekeeping loop before the program is asked to stop, unless its interval is too long
to be written or to be waited for (`Monitor.run_ends`).
-/

namespace SpotCapacity

namespace Exporter

/-- Two exporters that export the same series and remember the same nodes. -/
structure Matches (exporter other : Exporter) : Prop where
  gauges : exporter.gauges = other.gauges
  published : exporter.published = other.published

namespace Matches

variable {exporter other : Exporter}

/-- An update does the same to exporters that match. -/
theorem update (same : exporter.Matches other) (map : NodeMap) :
    (exporter.update map).1 = (other.update map).1 ∧
      (exporter.update map).2.Matches (other.update map).2 := by
  have steps : exporter.updateSteps map = other.updateSteps map := by
    unfold updateSteps gone
    rw [same.published]
  unfold Exporter.update
  rw [steps, same.gauges]
  split
  · exact ⟨rfl, rfl, rfl⟩
  · exact ⟨rfl, rfl, same.published⟩

theorem clear (same : exporter.Matches other) : exporter.clear.Matches other.clear := by
  unfold Exporter.clear
  rw [same.gauges, same.published]
  exact ⟨rfl, rfl⟩

/-- Exporters that match still do after the same call. -/
theorem perform (same : exporter.Matches other) (call : Call) :
    (exporter.perform call).Matches (other.perform call) := by
  cases call with
  | update map => exact (same.update map).2
  | clear => exact same.clear

end Matches

/-- Showing a map counts no build. -/
theorem update_counts (exporter : Exporter) (map : NodeMap) :
    (exporter.update map).2.successes = exporter.successes ∧
      (exporter.update map).2.failures = exporter.failures := by
  unfold update
  split
  · exact ⟨rfl, rfl⟩
  · exact ⟨rfl, rfl⟩

end Exporter

namespace Frame

variable {config : NodeMapConfig} {frame : Frame} {map : NodeMap}

/-- All nodes of a map that a cycle builds have metadata, as all nodes of a class do. -/
theorem named_of_built (built : (frame.build config).1 = .ok map) :
    ∀ info ∈ map.spot ++ map.onDemand, ∃ name, info.node.name = .ok name := by
  intro info member
  obtain ⟨nodes, -, same⟩ :=
    NodeMap.ofCluster_yields config frame.schedule frame.api frame.session map built
  have kept := same.mem_iff.mp (List.mem_map_of_mem member)
  exact config.named_of_classify (of_decide_eq_true (List.mem_filter.mp kept).2)

private theorem showable_iff_fits (built : (frame.build config).1 = .ok map) :
    map.Showable ↔ map.Fits :=
  ⟨NodeMap.Showable.fits, fun fits => ⟨named_of_built built, fits⟩⟩

/-- What a cycle does to the series that are exported. -/
def call (config : NodeMapConfig) (frame : Frame) : Exporter.Call :=
  match (frame.build config).1 with
  | .ok map => .update map
  | .error _ => .clear

private theorem call_eq_update_iff : frame.call config = .update map ↔ (frame.build config).1 = .ok map := by
  unfold call
  split
  · rename_i other built
    rw [built, Exporter.Call.update.injEq, Except.ok.injEq]
  · rename_i fault failed
    simp [failed]

end Frame

namespace Monitor

/-- What a cycle leaves behind it: a monitor that holds the outcome of the build, and an exporter that
has counted the build and shown or removed its series. -/
structure Leaves (config : NodeMapConfig) (frame : Frame) (before after : Exporter)
    (monitor : Monitor) : Prop where
  same : monitor.config = config
  exported : monitor.exporter = some after
  latest : monitor.latest = (frame.build config).1.toOption
  failures : after.failures = before.failures + if frame.succeeds config then 0 else 1
  successes : after.successes = before.successes + if frame.succeeds config then 1 else 0
  shown : after.Matches (before.perform (frame.call config))

variable {config : NodeMapConfig} {monitor : Monitor} {exporter : Exporter} {frame : Frame}

/-- What a cycle leaves, whether its build succeeds or not. -/
theorem cycle_leaves (exported : monitor.exporter = some exporter) (frame : Frame) :
    ∃ after, Leaves monitor.config frame exporter after
      (monitor.cycle frame.schedule frame.api frame.session).1.2 := by
  rcases built : frame.build monitor.config with ⟨fault | map, later⟩
  · have failed : frame.succeeds monitor.config = false := by rw [Frame.succeeds, built]; rfl
    have call : frame.call monitor.config = .clear := by rw [Frame.call, built]
    rw [cycle_of_error built]
    refine ⟨_, rfl, by rw [discard, countDelays, exported]; rfl, by rw [built]; rfl, ?_, ?_, ?_⟩
    · rw [failed]
      rfl
    · rw [failed]
      rfl
    · rw [call]
      exact ⟨rfl, rfl⟩
  · have succeeded : frame.succeeds monitor.config = true := by rw [Frame.succeeds, built]; rfl
    have call : frame.call monitor.config = .update map := by rw [Frame.call, built]
    rw [cycle_of_ok built, adopt, countDelays, exported, Option.map_some]
    obtain ⟨successes, failures⟩ := ((exporter.recordDelays
      (later.delays.length - frame.session.delays.length)).recordBuild true
        (later.now - frame.session.now)).update_counts map
    refine ⟨_, rfl, rfl, by rw [built]; rfl, ?_, ?_, ?_⟩
    · rw [succeeded, failures]
      rfl
    · rw [succeeded, successes]
      rfl
    · rw [call]
      have recorded : ((exporter.recordDelays (later.delays.length - frame.session.delays.length)
          ).recordBuild true (later.now - frame.session.now)).Matches exporter := ⟨rfl, rfl⟩
      exact (recorded.update map).2

/-- A cycle leaves the interval between cycles as it is. -/
theorem cycle_interval (monitor : Monitor) (frame : Frame) :
    (monitor.cycle frame.schedule frame.api frame.session).1.2.interval = monitor.interval := by
  rcases built : frame.build monitor.config with ⟨fault | map, later⟩
  · rw [cycle_of_error built]
    rfl
  · rw [cycle_of_ok built, adopt]
    split <;> rfl

private theorem after_interval (monitor : Monitor) (frames : List Frame) :
    (monitor.after frames).interval = monitor.interval := by
  induction frames using List.reverseRecOn with
  | nil => rfl
  | append_singleton frames frame ih =>
      rw [Monitor.after, List.foldl_append]
      exact (cycle_interval _ frame).trans ih

/-- A fault leaves a cycle exactly if the map that was built has an amount that fits no double. -/
theorem cycle_eq_error_iff (exported : monitor.exporter = some exporter) (frame : Frame)
    (fault : Fault) :
    (monitor.cycle frame.schedule frame.api frame.session).1.1 = .error fault ↔
      fault = .doubleRange ∧ ∃ map, (frame.build monitor.config).1 = .ok map ∧ ¬ map.Fits := by
  rcases built : frame.build monitor.config with ⟨failure | map, later⟩
  · rw [cycle_of_error built]
    simp
  · have named : ∀ info ∈ map.spot ++ map.onDemand, ∃ name, info.node.name = .ok name :=
      Frame.named_of_built (by rw [built])
    have showable : map.Showable ↔ map.Fits := Frame.showable_iff_fits (by rw [built])
    rw [cycle_of_ok built, adopt, countDelays, exported, Option.map_some]
    dsimp only
    by_cases fits : map.Fits
    · rw [Exporter.update_of_showable _ (showable.mpr fits)]
      simp [fits]
    · obtain ⟨other, member, ended⟩ := ((exporter.recordDelays
        (later.delays.length - frame.session.delays.length)).recordBuild true
          (later.now - frame.session.now)).update_of_not_showable (mt showable.mp fits)
      obtain rfl : other = .doubleRange := NodeMap.doubleRange_of_error named member
      rw [ended]
      simp [fits, eq_comm]

/-- A monitor with an exporter after cycles, seen from what they showed. -/
theorem after_matches (config : NodeMapConfig) (interval port : Int) (frames : List Frame) :
    ∃ exporter, ((new config interval (some (.new port))).after frames).config = config ∧
      ((new config interval (some (.new port))).after frames).exporter = some exporter ∧
      exporter.Matches ((Exporter.new port).after (frames.map (Frame.call config))) := by
  induction frames using List.reverseRecOn with
  | nil => exact ⟨.new port, rfl, rfl, rfl, rfl⟩
  | append_singleton frames frame ih =>
      obtain ⟨before, same, exported, shown⟩ := ih
      obtain ⟨after, leaves⟩ := cycle_leaves exported frame
      rw [same] at leaves
      rw [Monitor.after, List.foldl_append, List.map_append, List.map_singleton,
        Exporter.after_concat]
      refine ⟨after, leaves.same, leaves.exported, ?_⟩
      obtain ⟨gauges, published⟩ := shown.perform (frame.call config)
      exact ⟨leaves.shown.gauges.trans gauges, leaves.shown.published.trans published⟩

section

variable {schedule : List PoolMove} {api : ClusterApi} {session later : Session} {fault : Fault}
  {left : Monitor} (longest : Option Int) (rest : List ClusterApi)

private theorem cycles_of_stopped (stopped : session.stopped = true) :
    monitor.cycles schedule longest (api :: rest) session = ((.ok (), monitor), session) := by
  unfold cycles
  simp only [bind, StateT.bind, get, getThe, MonadStateOf.get, StateT.get, pure, StateT.pure, stopped,
    ↓reduceIte]

private theorem cycles_of_error (going : session.stopped = false)
    (ended : monitor.cycle schedule api session = ((.error fault, left), later)) :
    monitor.cycles schedule longest (api :: rest) session = ((.error fault, left), later) := by
  unfold cycles
  simp only [bind, StateT.bind, get, getThe, MonadStateOf.get, StateT.get, pure, StateT.pure, going,
    Bool.false_eq_true, ↓reduceIte, ended]

/-- After a cycle without a fault the loop waits, and goes on unless it was asked to stop or the wait is
too long. -/
theorem cycles_of_ok (going : session.stopped = false)
    (ended : monitor.cycle schedule api session = ((.ok (), left), later)) :
    monitor.cycles schedule longest (api :: rest) session =
      let waited := later.note (.waited left.interval)
      if later.stopped then ((.ok (), left), waited)
      else if longest.any (· < left.interval) then ((.error .waitTooLong, left), waited)
      else left.cycles schedule longest rest
        (if rest.isEmpty then waited.requestStop else waited) := by
  rw [cycles]
  simp only [bind, StateT.bind, get, getThe, MonadStateOf.get, StateT.get, pure, going,
    Bool.false_eq_true, ↓reduceIte, ended, modify, modifyGet, MonadStateOf.modifyGet,
    StateT.modifyGet, Session.note]
  cases later.stopped <;> cases longest.any (· < left.interval) <;> cases rest <;> rfl

end

/-- A run ends when it is asked to stop, in a cycle that builds a map with an amount that fits no double,
or because its interval is too long to be written, or longer than the longest wait. -/
def Ends (config : NodeMapConfig) (interval : Int) (longest : Option Int) (schedule : List PoolMove)
    (apis : List ClusterApi) (outcome : Except Fault Unit) (stopped : Bool) : Prop :=
  outcome = .ok () ∧ stopped = true ∨
    (outcome = .error .doubleRange ∧ ∃ start, ∃ api ∈ apis, ∃ map,
      (Frame.build config ⟨start, schedule, api⟩).1 = .ok map ∧ ¬ map.Fits) ∨
    (outcome = .error .integerTooLong ∧ Text.isWritable interval = false) ∨
    (outcome = .error .waitTooLong ∧ ∃ most, longest = some most ∧ most < interval)

/-- A run that ends in some states of the cluster ends so with one more state before them. -/
theorem Ends.later {interval : Int} {longest : Option Int} {schedule : List PoolMove}
    {rest : List ClusterApi} {outcome : Except Fault Unit} {stopped : Bool}
    (ends : Ends config interval longest schedule rest outcome stopped) (api : ClusterApi) :
    Ends config interval longest schedule (api :: rest) outcome stopped := by
  rcases ends with asked | ⟨escaped, start, other, member, large⟩ | long
  · exact .inl asked
  · exact .inr (.inl ⟨escaped, start, other, List.mem_cons_of_mem _ member, large⟩)
  · exact .inr (.inr long)

private theorem exists_of_any_lt {longest : Option Int} {interval : Int}
    (longer : longest.any (· < interval) = true) : ∃ most, longest = some most ∧ most < interval := by
  cases longest with
  | none => cases longer
  | some most => exact ⟨most, rfl, of_decide_eq_true longer⟩

/-- How the cycles of a loop end, by induction on the states that the cluster takes. -/
theorem cycles_end (exported : monitor.exporter = some exporter) (schedule : List PoolMove)
    (longest : Option Int) (apis : List ClusterApi) (session : Session)
    (begins : apis ≠ [] ∨ session.stopped = true) :
    Ends monitor.config monitor.interval longest schedule apis
      (monitor.cycles schedule longest apis session).1.1
      (monitor.cycles schedule longest apis session).2.stopped := by
  induction apis generalizing monitor exporter session with
  | nil => exact .inl ⟨rfl, begins.resolve_left (not_not_intro rfl)⟩
  | cons api rest ih =>
      cases going : session.stopped with
      | true =>
          rw [cycles_of_stopped longest rest going]
          exact .inl ⟨rfl, going⟩
      | false =>
          let frame : Frame := ⟨session, schedule, api⟩
          obtain ⟨after, leaves⟩ := cycle_leaves exported frame
          have interval := cycle_interval monitor frame
          rcases ended : monitor.cycle schedule api session with ⟨⟨fault | done, left⟩, later⟩
          · rw [cycles_of_error longest rest going ended]
            obtain ⟨rfl, map, built, large⟩ :=
              (cycle_eq_error_iff exported frame fault).mp (by rw [ended])
            exact .inr (.inl ⟨rfl, session, api, List.mem_cons_self, map, built, large⟩)
          · rw [ended] at leaves interval
            rw [cycles_of_ok longest rest going ended]
            dsimp only
            -- Either the loop ends here, or the rest of it ends as this lemma says.
            cases stopped : later.stopped with
            | true => exact .inl ⟨rfl, stopped⟩
            | false =>
                cases waits : longest.any (· < left.interval) with
                | true =>
                    rw [interval] at waits
                    exact .inr (.inr (.inr ⟨rfl, exists_of_any_lt waits⟩))
                | false =>
                    simp only [Bool.false_eq_true, ↓reduceIte]
                    apply Ends.later
                    rw [← leaves.same, ← interval]
                    refine ih leaves.exported _ ?_
                    cases rest with
                    | nil => exact .inr rfl
                    | cons next others => exact .inl (List.cons_ne_nil _ _)

section

variable {schedule : List PoolMove} {apis : List ClusterApi} {longest : Option Int}
  {session later : Session} {fault : Fault} {left : Monitor}

/-- A session in which the loop has been announced. -/
def announced (monitor : Monitor) (session : Session) : Session :=
  session.log .info .monitor s!"Starting housekeeping loop (interval {toString monitor.interval}s)"

private theorem run_of_long (long : Text.isWritable monitor.interval = false) :
    monitor.run schedule apis longest session = ((.error .integerTooLong, monitor), session) := by
  unfold run
  rw [integerText_of_long long]
  simp only [pure, StateT.pure]

private theorem run_of_error (short : Text.isWritable monitor.interval = true)
    (ended : monitor.cycles schedule longest apis (monitor.announced session) =
      ((.error fault, left), later)) :
    monitor.run schedule apis longest session = ((.error fault, left), later) := by
  unfold announced at ended
  unfold run
  rw [integerText_of_short short]
  simp only [bind, StateT.bind, modify, modifyGet, MonadStateOf.modifyGet, StateT.modifyGet, pure,
    StateT.pure, ended]

private theorem run_of_ok (short : Text.isWritable monitor.interval = true)
    (ended : monitor.cycles schedule longest apis (monitor.announced session) =
      ((.ok (), left), later)) :
    monitor.run schedule apis longest session =
      ((.ok (), left), later.log .info .monitor "Housekeeping loop stopped") := by
  unfold announced at ended
  unfold run
  rw [integerText_of_short short]
  simp only [bind, StateT.bind, modify, modifyGet, MonadStateOf.modifyGet, StateT.modifyGet, pure,
    StateT.pure, ended]

end

/-- How a run ends. The loop is announced first, which fails if its interval cannot be written. -/
theorem run_ends (exported : monitor.exporter = some exporter) (schedule : List PoolMove)
    {apis : List ClusterApi} (longest : Option Int) (begins : apis ≠ []) (session : Session) :
    Ends monitor.config monitor.interval longest schedule apis
      (monitor.run schedule apis longest session).1.1
      (monitor.run schedule apis longest session).2.stopped := by
  cases short : Text.isWritable monitor.interval with
  | false =>
      rw [run_of_long short]
      exact .inr (.inr (.inl ⟨rfl, short⟩))
  | true =>
      have looped := cycles_end exported schedule longest apis (monitor.announced session)
        (.inl begins)
      rcases ended : monitor.cycles schedule longest apis (monitor.announced session) with
        ⟨⟨fault | done, left⟩, later⟩
      · rw [ended] at looped
        rw [run_of_error short ended]
        exact looped
      · rw [ended] at looped
        rw [run_of_ok short ended]
        exact looped

/-- **How cycles end.** After any cycles, in whatever clusters, the next one ends with a fault exactly if
it builds a map with an amount that fits no double. A failed build leaves no map, is counted once as a
failure, and leaves no series but those that earlier cycles left behind when such a fault stopped them, so
none at all if they had no such fault. A build that succeeds leaves its map and is counted once as a
success, even if the map cannot be shown. A run that starts now ends when it is asked to stop, or by such a
fault, unless its interval is too long to be written or to be waited for. -/
theorem cycle_ends (config : NodeMapConfig) (interval port : Int) (frames : List Frame)
    (frame : Frame) :
    let monitor := (new config interval (some (.new port))).after frames
    let ended := (monitor.cycle frame.schedule frame.api frame.session).1
    ∃ before after, monitor.exporter = some before ∧ ended.2.exporter = some after ∧
      (∀ fault, ended.1 = .error fault ↔
        fault = .doubleRange ∧ ∃ map, (frame.build config).1 = .ok map ∧ ¬ map.Fits) ∧
      (∀ fault, (frame.build config).1 = .error fault →
        ended.2.latest = none ∧ after.failures = before.failures + 1 ∧
          after.successes = before.successes ∧
          (∀ series, after.gauges.Has series ↔
            (∃ gauge name nodeClass, series = .ofNode gauge name nodeClass) ∧
              (Exporter.new port).LeavesBehind (frames.map (Frame.call config)) series) ∧
          ((∀ earlier ∈ frames, ∀ map, (earlier.build config).1 = .ok map → map.Fits) →
            after.gauges = [])) ∧
      (∀ map, (frame.build config).1 = .ok map →
        ended.2.latest = some map ∧ after.failures = before.failures ∧
          after.successes = before.successes + 1) ∧
      ∀ schedule apis longest session, apis ≠ [] →
        Ends config interval longest schedule apis (monitor.run schedule apis longest session).1.1
          (monitor.run schedule apis longest session).2.stopped := by
  intro monitor ended
  obtain ⟨before, same, exported, history⟩ := after_matches config interval port frames
  obtain ⟨after, leaves⟩ := cycle_leaves exported frame
  have escapes := cycle_eq_error_iff exported frame
  rw [same] at leaves escapes
  refine ⟨before, after, exported, leaves.exported, escapes, ?_, ?_, ?_⟩
  · intro fault failed
    have fails : frame.succeeds config = false := by rw [Frame.succeeds, failed]; rfl
    have cleared : after.gauges = ((Exporter.new port).after
        (frames.map (Frame.call config))).clear.gauges := by
      have call : frame.call config = .clear := by rw [Frame.call, failed]
      rw [leaves.shown.gauges, call]
      exact history.clear.gauges
    refine ⟨by rw [leaves.latest, failed]; rfl, by rw [leaves.failures, fails]; rfl,
      by rw [leaves.successes, fails]; rfl, ?_, ?_⟩
    · rw [cleared]
      exact Exporter.has_clear_after_iff port _
    · intro fit
      rw [cleared]
      apply Exporter.clear_after_eq_nil
      intro map member
      obtain ⟨earlier, inside, update⟩ := List.mem_map.mp member
      have built := Frame.call_eq_update_iff.mp update
      exact (Frame.showable_iff_fits built).mpr (fit earlier inside map built)
  · intro map built
    have succeeds : frame.succeeds config = true := by rw [Frame.succeeds, built]; rfl
    exact ⟨by rw [leaves.latest, built]; rfl, by rw [leaves.failures, succeeds]; rfl,
      by rw [leaves.successes, succeeds]; rfl⟩
  · intro schedule apis longest session begins
    have held : monitor.exporter = some before := exported
    have ends := run_ends held schedule longest begins session
    have unchanged : monitor.interval = interval := after_interval _ frames
    have kept : monitor.config = config := same
    rw [kept, unchanged] at ends
    exact ends

end Monitor

/-! ## A cluster with a huge node -/

namespace HugeNode

/-- The cluster of the huge node, with no pods on it. -/
def api : ClusterApi := ⟨.ok (some [node]), fun _ => .ok (some []), 0, false⟩

/-- The map of the huge node is built. -/
theorem outcome_eq : NodeMap.outcome .standard api.listedPods [node] = .ok map := by
  have candidates : NodeMapConfig.standard.candidates [node] = [(node, .onDemand)] := rfl
  have accounted : NodeMapConfig.standard.accounted api.listedPods node .onDemand =
      .ok ⟨node, [], 0, offer⟩ :=
    NodeMapConfig.accounted_of_no_pods rfl (by decide +kernel)
  have arranged : NodeMap.assemble [(.onDemand, ⟨node, [], 0, offer⟩)] = map := by
    simp [NodeMap.assemble, map]
  have summed : ∃ text, map.summary = .ok text := Outcome.isOk_iff.mp (by decide +kernel)
  refine NodeMap.outcome_eq_ok_iff.mpr ⟨rfl, _, ?_, arranged, summed⟩
  rw [candidates]
  exact Outcome.mapM_eq_ok_iff.mpr (.cons (NodeMapConfig.entered_of_accounted accounted) .nil)

theorem api_returns : (NodeMap.ofCluster .standard [] api).Returns SmallFleet.still (.ok map) := by
  have returned : (NodeMap.ofCluster .standard [] api).Returns SmallFleet.still
      (api.listedNodes >>= NodeMap.outcome .standard api.listedPods) :=
    NodeMap.ofCluster_returns (fun _ valid => valid.1) SmallFleet.still_elapses rfl .standard []
  exact outcome_eq ▸ returned

def frame : Frame := ⟨.start 0 none, [], api⟩

end HugeNode

/-- The cycle that meets the huge node fails with its map in place, counted as a success. -/
theorem Monitor.cycle_escapes_hugeNode :
    let monitor := new .standard 10 (some (.new 9235))
    let ended := (monitor.cycle [] HugeNode.api (.start 0 none)).1
    ended.1 = .error .doubleRange ∧ ended.2.latest = some HugeNode.map ∧
      ∃ exporter, ended.2.exporter = some exporter ∧ exporter.successes = 1 ∧
        exporter.failures = 0 ∧ exporter.gauges.Has (.ofNode .requestedCpu "huge" .onDemand) := by
  intro monitor ended
  have built : (HugeNode.frame.build .standard).1 = .ok HugeNode.map :=
    (HugeNode.api_returns _ ⟨rfl, rfl⟩).1
  have exported : monitor.exporter = some (.new 9235) := rfl
  have succeeds : HugeNode.frame.succeeds .standard = true := by rw [Frame.succeeds, built]; rfl
  have call : HugeNode.frame.call .standard = .update HugeNode.map := by rw [Frame.call, built]
  have same : monitor.config = .standard := rfl
  obtain ⟨after, leaves⟩ := cycle_leaves exported HugeNode.frame
  rw [same] at leaves
  refine ⟨?_, leaves.latest.trans (by rw [built]; rfl), after, leaves.exported, ?_, ?_, ?_⟩
  · exact (cycle_eq_error_iff exported HugeNode.frame .doubleRange).mpr
      ⟨rfl, HugeNode.map, built, HugeNode.not_fits⟩
  · rw [leaves.successes, succeeds]
    rfl
  · rw [leaves.failures, succeeds]
    rfl
  · rw [leaves.shown.gauges, call]
    decide +kernel

end SpotCapacity
