import SpotCapacity.Monitor
import SpotCapacity.Proofs.Cluster
import SpotCapacity.Proofs.Metrics.Exporter

/-!
# The monitor is never behind

After any cycles, in whatever clusters, the monitor holds the map that the last cycle built, or none
when that cycle failed, and its exporter shows that map and nothing else; the counters of builds are
the numbers of cycles that succeeded and failed (`Monitor.current_after`). One cycle keeps all of this
(`Monitor.cycle_follows`), whichever cycles came before it.
-/

namespace SpotCapacity

/-- What a cycle meets: the session in which it starts, the schedule of its pool and the cluster. A
cycle may start in any session, so that it does not matter what happens between two cycles. -/
structure Frame where
  session : Session
  schedule : List PoolMove
  api : ClusterApi

namespace Frame

/-- The build of a cycle, and the session after it. -/
def build (config : NodeMapConfig) (frame : Frame) : Except Fault NodeMap × Session :=
  NodeMap.ofCluster config frame.schedule frame.api frame.session

def succeeds (config : NodeMapConfig) (frame : Frame) : Bool := (frame.build config).1.isOk

/-- A cycle in a cluster that names its nodes differently, with totals that fit a double, on a clock
that shows finite times. -/
structure Regular (config : NodeMapConfig) (frame : Frame) : Prop where
  named : ∀ nodes, frame.api.nodes = .ok (some nodes) → ∀ node ∈ nodes, node.name ≠ .ok none
  distinct : ∀ nodes, frame.api.nodes = .ok (some nodes) →
    nodes.Pairwise fun left right => ∀ name, left.name = .ok name → right.name ≠ .ok name
  fits : ∀ map, (frame.build config).1 = .ok map → map.Fits
  started : frame.session.now.value?.isSome = true
  ended : (frame.build config).2.now.value?.isSome = true

variable {config : NodeMapConfig} {frame : Frame}

/-- The nodes of the map that a cycle builds have names of their own. -/
theorem Regular.named_of_built (regular : frame.Regular config) {map : NodeMap}
    (built : (frame.build config).1 = .ok map) : map.Named := by
  obtain ⟨nodes, listed, same⟩ :=
    NodeMap.ofCluster_yields config frame.schedule frame.api frame.session map built
  constructor
  · intro info member
    have kept : info.node ∈ nodes.filter fun node => config.classify node ≠ .none :=
      same.mem_iff.mp (List.mem_map_of_mem member)
    obtain ⟨inside, classified⟩ := List.mem_filter.mp kept
    obtain ⟨name, here⟩ := config.named_of_classify (of_decide_eq_true classified)
    cases name with
    | none => exact absurd here (regular.named nodes listed info.node inside)
    | some text => exact ⟨text, here⟩
  · have names := same.map Node.name
    rw [List.map_map] at names
    refine names.nodup_iff.mpr (List.pairwise_map.mpr ?_)
    refine ((regular.distinct nodes listed).filter _).imp_of_mem ?_
    intro left right inLeft _ apart equal
    obtain ⟨name, here⟩ :=
      config.named_of_classify (of_decide_eq_true (List.mem_filter.mp inLeft).2)
    exact apart name here (equal.symm.trans here)

private theorem Regular.duration_ne_nan (regular : frame.Regular config) :
    (frame.build config).2.now - frame.session.now ≠ .nan :=
  Double.sub_ne_nan regular.ended regular.started

end Frame

namespace Monitor

variable {monitor : Monitor} {schedule : List PoolMove} {api : ClusterApi}
  {session later : Session}

/-- The monitor after its exporter has counted delays. -/
def countDelays (count : Nat) (monitor : Monitor) : Monitor :=
  { monitor with exporter := monitor.exporter.map (·.recordDelays count) }

/-- A build ends as building the map of the cluster does, and counts the delays on the way. -/
theorem build_eq {result : Except Fault NodeMap}
    (ended : NodeMap.ofCluster monitor.config schedule api session = (result, later)) :
    monitor.build schedule api session =
      ((result, monitor.countDelays (later.delays.length - session.delays.length)), later) := by
  have ran : ∀ ended : Except Fault NodeMap × Session,
      NodeMap.ofCluster monitor.config schedule api session = ended →
      monitor.build schedule api session =
        ((ended.1, monitor.countDelays (ended.2.delays.length - session.delays.length)), ended.2) := by
    rintro _ rfl
    rfl
  exact ran _ ended

/-- A cycle, from the session in which it starts. -/
private theorem cycle_eq {result : Except Fault NodeMap} {built : Monitor}
    (ran : monitor.build schedule api session = ((result, built), later)) :
    monitor.cycle schedule api session =
      (match result with
        | .ok map => do return built.adopt map ((← get).now - session.now)
        | .error fault => do
          modify (reportFailure fault)
          return (.ok (), built.discard ((← get).now - session.now)) : StateM Session _) later := by
  have shape : ∀ ran, monitor.build schedule api session = ran →
      monitor.cycle schedule api session =
      (match ran.1.1 with
        | .ok map => do return ran.1.2.adopt map ((← get).now - session.now)
        | .error fault => do
          modify (reportFailure fault)
          return (.ok (), ran.1.2.discard ((← get).now - session.now)) : StateM Session _) ran.2 := by
    rintro _ rfl
    rfl
  exact shape _ ran

/-- A cycle whose build succeeds adopts the map. -/
theorem cycle_of_ok {map : NodeMap}
    (built : NodeMap.ofCluster monitor.config schedule api session = (.ok map, later)) :
    monitor.cycle schedule api session =
      (adopt map (later.now - session.now)
        (monitor.countDelays (later.delays.length - session.delays.length)), later) :=
  cycle_eq (build_eq built)

private theorem reportFailure_now (fault : Fault) (session : Session) :
    (reportFailure fault session).now = session.now := by
  rw [reportFailure]
  split <;> rfl

/-- A cycle whose build fails reports the fault and drops the map. -/
theorem cycle_of_error {fault : Fault}
    (failed : NodeMap.ofCluster monitor.config schedule api session = (.error fault, later)) :
    monitor.cycle schedule api session =
      ((.ok (), discard (later.now - session.now)
        (monitor.countDelays (later.delays.length - session.delays.length))),
        reportFailure fault later) := by
  rw [cycle_eq (build_eq failed), ← reportFailure_now fault later]
  rfl

def after (monitor : Monitor) (frames : List Frame) : Monitor :=
  frames.foldl (fun monitor frame => (monitor.cycle frame.schedule frame.api frame.session).1.2)
    monitor

/-- A monitor and its exporter after cycles: up to date with the last one, and with a count of all. -/
structure Follows (config : NodeMapConfig) (frames : List Frame) (monitor : Monitor)
    (exporter : Exporter) : Prop where
  same : monitor.config = config
  exported : monitor.exporter = some exporter
  latest : monitor.latest = frames.getLast?.bind fun frame => (frame.build config).1.toOption
  tracks : exporter.Tracks monitor.latest
  counts : exporter.Counts (frames.countP fun frame => frame.succeeds config)
    (frames.countP fun frame => !frame.succeeds config)

variable {config : NodeMapConfig} {frames : List Frame} {exporter : Exporter} {frame : Frame}

/-- A cycle does not fail, and leaves the monitor up to date with it. -/
theorem cycle_follows (follows : Follows config frames monitor exporter)
    (regular : frame.Regular config) :
    (monitor.cycle frame.schedule frame.api frame.session).1.1 = .ok () ∧
      ∃ after, Follows config (frames ++ [frame])
        (monitor.cycle frame.schedule frame.api frame.session).1.2 after := by
  obtain ⟨same, exported, latest, tracks, counts⟩ := follows
  subst same
  have numeric := regular.duration_ne_nan
  rcases built : frame.build monitor.config with ⟨fault | map, later⟩
  -- The build fails: the map is dropped, and all of its series.
  · have failed : frame.succeeds monitor.config = false := by rw [Frame.succeeds, built]; rfl
    rw [built] at numeric
    rw [cycle_of_error built]
    refine ⟨rfl, _, rfl, by rw [discard, countDelays, exported]; rfl, ?_, ?_, ?_⟩
    · rw [List.getLast?_concat, Option.bind_some, built]
      rfl
    · exact ((tracks.recordDelays _).recordBuild false _).clear
    · have counted := ((counts.recordDelays (later.delays.length - frame.session.delays.length)
        ).recordBuild false numeric).clear
      simpa [List.countP_append, failed] using counted
  -- The build succeeds: its map replaces the one before, and cannot fail to be shown.
  · have succeeded : frame.succeeds monitor.config = true := by rw [Frame.succeeds, built]; rfl
    have named : map.Named := regular.named_of_built (by rw [built])
    have fits : map.Fits := regular.fits map (by rw [built])
    rw [built] at numeric
    rw [cycle_of_ok built, adopt, countDelays, exported, Option.map_some]
    have shown := Exporter.update_eq ((exporter.recordDelays
      (later.delays.length - frame.session.delays.length)).recordBuild true
        (later.now - frame.session.now)) named fits
    refine ⟨congrArg Prod.fst shown, _, rfl, rfl, ?_, ?_, ?_⟩
    · rw [List.getLast?_concat, Option.bind_some, built]
      rfl
    · exact ((tracks.recordDelays _).recordBuild true _).update named fits
    · have counted := ((counts.recordDelays (later.delays.length - frame.session.delays.length)
        ).recordBuild true numeric).update named fits
      simpa [List.countP_append, succeeded] using counted

/-- After cycles, a monitor and its exporter are as the frames tell. -/
theorem after_follows (frames : List Frame) (regular : ∀ frame ∈ frames, frame.Regular config)
    (interval port : Int) :
    ∃ exporter, Follows config frames
      ((new config interval (some (.new port))).after frames) exporter := by
  induction frames using List.reverseRecOn with
  | nil =>
      exact ⟨.new port, rfl, rfl, rfl, Exporter.new_tracks port, Exporter.new_counts port⟩
  | append_singleton frames frame ih =>
      obtain ⟨earlier, last⟩ := List.forall_mem_append.mp regular
      obtain ⟨exporter, follows⟩ := ih earlier
      obtain ⟨-, later, current⟩ := cycle_follows follows (last frame List.mem_cons_self)
      rw [after, List.foldl_append]
      exact ⟨later, current⟩

/-- **The monitor is never behind.** After any cycles, each in a cluster of its own, the monitor holds
the map that the last cycle built, or none when that cycle failed; its exporter shows exactly this map,
or nothing; it has counted the cycles that succeeded and those that failed, each with its duration; and
the next cycle comes to its end, whatever becomes of its build. -/
theorem current_after (config : NodeMapConfig) (interval port : Int) (frames : List Frame)
    (regular : ∀ frame ∈ frames, frame.Regular config) :
    let monitor := (new config interval (some (.new port))).after frames
    ∃ exporter, monitor.exporter = some exporter ∧
      monitor.latest = (frames.getLast?.bind fun frame => (frame.build config).1.toOption) ∧
      exporter.Exports monitor.latest ∧
      exporter.successes = (frames.countP fun frame => (frame.build config).1.isOk) ∧
      exporter.failures = (frames.countP fun frame => !(frame.build config).1.isOk) ∧
      exporter.durations.count = exporter.successes + exporter.failures ∧
      ∀ frame : Frame, frame.Regular config →
        (monitor.cycle frame.schedule frame.api frame.session).1.1 = .ok () := by
  intro monitor
  obtain ⟨exporter, follows⟩ := after_follows frames regular interval port
  refine ⟨exporter, follows.exported, follows.latest, follows.tracks.exports,
    follows.counts.successes, follows.counts.failures, ?_, ?_⟩
  · rw [follows.counts.observed, follows.counts.successes, follows.counts.failures]
  · exact fun frame regular => (cycle_follows follows regular).1

end Monitor

/-! ## The small fleet, with an outage -/

namespace SmallFleet

def api : ClusterApi := ⟨.ok (some nodes), fun name => .ok (some (podsOn name)), 0, false⟩

/-- The small fleet while its nodes cannot be listed. -/
def outage : ClusterApi := { api with nodes := .error (.retries none) }

/-- Sessions without a limiter whose clock stands still. -/
def still (session : Session) : Prop := session.limiter = none ∧ session.now = 0

instance : SessionKind still := ⟨fun _ valid => valid⟩

theorem still_elapses (session : Session) (valid : still session) :
    still { session with now := session.now + 0 } := by
  have stands : (0 : Double) + 0 = 0 := by decide +kernel
  exact ⟨valid.1, by dsimp only; rw [valid.2, stands]⟩

/-- The build of the small fleet gives its map. -/
theorem api_returns : (NodeMap.ofCluster .standard [] api).Returns still (.ok map) := by
  have same : api.listedPods = answer := rfl
  have returned : (NodeMap.ofCluster .standard [] api).Returns still
      (api.listedNodes >>= NodeMap.outcome .standard api.listedPods) :=
    NodeMap.ofCluster_returns (fun _ valid => valid.1) still_elapses rfl .standard []
  rw [same] at returned
  exact outcome_eq ▸ returned

/-- The map is built of the nodes alone, too. -/
theorem api_build : (NodeMap.build .standard api.listPods [] nodes (.start 0 none)).1 = .ok map := by
  have lists : ∀ node, (api.listPods node).Returns still (answer node) :=
    ClusterApi.listPods_returns (fun _ valid => valid.1) still_elapses
  rw [← outcome_eq]
  exact (NodeMap.build_returns lists [] nodes _ ⟨rfl, rfl⟩).1

private theorem outage_returns : (NodeMap.ofCluster .standard [] outage).Returns still
    (.error (.query .nodes (.retries none))) :=
  NodeMap.ofCluster_returns (fun _ valid => valid.1) still_elapses rfl .standard []

def frame : Frame := ⟨.start 0 none, [], api⟩

/-- A cycle while the nodes of the small fleet cannot be listed. -/
def darkFrame : Frame := ⟨.start 0 none, [], outage⟩

private theorem frame_build : (frame.build .standard).1 = .ok map := (api_returns _ ⟨rfl, rfl⟩).1

private theorem darkFrame_build :
    (darkFrame.build .standard).1 = .error (.query .nodes (.retries none)) :=
  (outage_returns _ ⟨rfl, rfl⟩).1

private theorem frame_regular : frame.Regular .standard := by
  have names : (nodes.map Node.name).Nodup := by decide +kernel
  have fits : ∀ entry ∈ map.series, (Double.ofInt? entry.2).isSome = true := by decide +kernel
  have clock : (frame.build .standard).2.now = 0 := (api_returns _ ⟨rfl, rfl⟩).2.2
  constructor
  · rintro _ same node member
    cases same
    have named : ∀ node ∈ nodes, node.name ≠ .ok none := by decide +kernel
    exact named node member
  · rintro _ same
    cases same
    exact (List.pairwise_map.mp names).imp fun apart name here there =>
      apart (here.trans there.symm)
  · intro other built
    obtain rfl : map = other := Except.ok.inj (frame_build.symm.trans built)
    exact fun entry member => Option.isSome_iff_exists.mp (fits entry member)
  · rfl
  · rw [clock]
    rfl

private theorem darkFrame_regular : darkFrame.Regular .standard := by
  have clock : (darkFrame.build .standard).2.now = 0 := (outage_returns _ ⟨rfl, rfl⟩).2.2
  refine ⟨fun _ same => ?_, fun _ same => ?_, fun _ built => ?_, rfl, ?_⟩
  · cases same
  · cases same
  · cases darkFrame_build.symm.trans built
  · rw [clock]
    rfl

end SmallFleet

/-- Two cycles that succeed, with an outage between them. -/
theorem Monitor.current_after_smallFleet :
    let monitor := (new .standard 10 (some (.new 9235))).after
      [SmallFleet.frame, SmallFleet.darkFrame, SmallFleet.frame]
    ∃ exporter, monitor.exporter = some exporter ∧ monitor.latest = some SmallFleet.map ∧
      exporter.Exports (some SmallFleet.map) ∧ exporter.successes = 2 ∧ exporter.failures = 1 ∧
      exporter.durations.count = 3 := by
  intro monitor
  have regular : ∀ frame ∈ [SmallFleet.frame, SmallFleet.darkFrame, SmallFleet.frame],
      frame.Regular .standard := by
    simp [SmallFleet.frame_regular, SmallFleet.darkFrame_regular]
  obtain ⟨exporter, exported, latest, exports, successes, failures, observed, -⟩ :=
    current_after .standard 10 9235 _ regular
  simp only [List.countP_cons, List.countP_nil, SmallFleet.frame_build,
    SmallFleet.darkFrame_build] at successes failures
  have current : monitor.latest = some SmallFleet.map := by
    rw [latest]
    simp only [List.getLast?_cons_cons, List.getLast?_singleton, Option.bind_some,
      SmallFleet.frame_build]
    rfl
  refine ⟨exporter, exported, current, current ▸ exports, successes, failures, ?_⟩
  rw [observed, successes, failures]
  rfl

end SpotCapacity
