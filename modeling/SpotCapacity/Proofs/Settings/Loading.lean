import SpotCapacity.Proofs.Conduct
import SpotCapacity.Proofs.Settings.Reading

/-!
# What a load comes to

Each setting takes its text from the last entry of the ConfigMap that names it, else from the environment,
else from its default (`Setting.textFrom`). A load comes to the configuration that these texts are read as,
or to the fault of the first setting that cannot be read (`Loader.load_reads`).
-/

namespace SpotCapacity

/-- How reading a ConfigMap of texts turns out. -/
inductive ConfigMapReading where
  | noClient
  | noData
  | refused (status : Option Int) (reason body : Option String)
  | entries (entries : List (String × String))

namespace ConfigMapReading

def answer : ConfigMapReading → Option (Except ApiFailure (Option ConfigMapData))
  | .noClient => none
  | .noData => some (.ok none)
  | .refused status reason body => some (.error (.refused status reason body))
  | .entries texts => some (.ok (some (texts.map fun entry => (entry.1, some entry.2))))

def found : ConfigMapReading → List (String × String)
  | .entries texts => texts
  | _ => []

end ConfigMapReading

namespace Setting

def capitals (key : String) : String := String.ofList (Text.upper key.toList)

/-- What the last of the entries whose keys name a setting, in any case, gives to it. -/
def given (entries : List (String × String)) (setting : Setting) : Option String :=
  (entries.filter fun entry => capitals entry.1 = setting.name).getLast?.map (·.2)

def textFrom (environment entries : List (String × String)) (setting : Setting) : String :=
  (setting.given entries).getD ((environment.lookup setting.name).getD setting.default)

private theorem ofKey?_eq_some_iff {key : String} {setting : Setting} :
    ofKey? key = some setting ↔ capitals key = setting.name := by
  have own : ∀ setting : Setting, ofName? setting.name = some setting := by
    intro setting
    cases setting <;> decide
  rw [ofKey?, ← capitals]
  constructor
  · intro named
    rw [ofName?] at named
    have same := List.find?_some named
    exact (beq_iff_eq.mp same).symm
  · intro same
    rw [same, own]

/-- A later entry of a setting takes precedence over the earlier ones. -/
theorem given_cons (key text : String) (entries : List (String × String)) (setting : Setting) :
    setting.given ((key, text) :: entries) =
      (setting.given entries).or (if capitals key = setting.name then some text else none) := by
  rw [given, given, List.filter_cons]
  by_cases named : capitals key = setting.name
  · rw [if_pos (by simpa using named), if_pos named, List.getLast?_cons]
    cases (entries.filter _).getLast? <;> rfl
  · rw [if_neg (by simpa using named), if_neg named, Option.or_none]

/-- Entries that do not name a setting give nothing to any. -/
theorem given_filter_known (entries : List (String × String)) (setting : Setting) :
    setting.given (entries.filter fun entry => (ofKey? entry.1).isSome) = setting.given entries := by
  rw [given, given, List.filter_filter]
  congr 2
  refine List.filter_congr fun entry _ => ?_
  by_cases named : capitals entry.1 = setting.name
  · rw [decide_eq_true named, ofKey?_eq_some_iff.mpr named]
    rfl
  · rw [decide_eq_false named, Bool.false_and]

/-- Items of one key, where the keys are apart, are the same in any order. -/
private theorem eq_of_perm {α β : Type} {items other : List α} (key : α → β) (value : β)
    (each : ∀ item ∈ items, key item = value) (apart : (items.map key).Nodup)
    (same : items.Perm other) : items = other := by
  match items with
  | [] => exact same.nil_eq
  | [item] => exact (List.singleton_perm.mp same).symm ▸ rfl
  | first :: second :: rest =>
      obtain ⟨here, there, -⟩ := List.forall_mem_cons.mp each |>.imp id List.forall_mem_cons.mp
      rw [List.map_cons, List.map_cons, here, there] at apart
      exact absurd List.mem_cons_self (List.nodup_cons.mp apart).1

/-- Where each setting is named at most once, the order of the entries is of no effect. -/
theorem given_perm {entries other : List (String × String)} (same : entries.Perm other)
    (apart : (entries.map fun entry => capitals entry.1).Nodup) (setting : Setting) :
    setting.given entries = setting.given other := by
  rw [given, given, eq_of_perm (fun entry => capitals entry.1) setting.name ?_ ?_
    (same.filter _)]
  · intro entry chosen
    exact of_decide_eq_true (List.mem_filter.mp chosen).2
  · exact apart.sublist (List.filter_sublist.map _)

end Setting

namespace Loader

open Act

/-- A loader after a load that came to a configuration. -/
def holding (loader : Loader) (config : Configuration) : Loader :=
  { loader with held := some config, version := loader.version + 1, reloaded := true }

/-- A load that comes to a configuration has read it from raw values, and has the loader hold it. -/
theorem load_yields (loader : Loader) (input : ConfigInput) :
    (loader.load input).Yields fun result =>
      result.2 = loader.holding result.1 ∧ ∃ raw, Configuration.ofRaw raw = .ok result.1 := by
  have finish : ∀ (raw : Setting → Option String) (messages : Configuration → String),
      (Act.ofExcept (Configuration.ofRaw raw) >>= fun config =>
        Act.log .info .settings (messages config) >>= fun _ =>
          (pure (config, loader.holding config) : Act (Configuration × Loader))).Yields fun result =>
        result.2 = loader.holding result.1 ∧ ∃ raw, Configuration.ofRaw raw = .ok result.1 := by
    intro raw messages
    refine (yields_ofExcept fun config read => read).bind fun config read => ?_
    exact (yields_any _).bind fun _ _ => yields_pure ⟨rfl, raw, read⟩
  unfold load
  refine (yields_any _).bind fun _ _ => (yields_any _).bind fun found _ => ?_
  split
  · exact (yields_any _).bind fun _ _ => finish _ _
  · exact finish _ _

section

variable (kind : Session → Prop) [SessionKind kind]

private theorem overrides_returns (entries : List (String × String))
    (found : List (Setting × Option String)) :
    ∃ after, (overrides.go found (entries.map fun entry => (entry.1, some entry.2))).Returns
        kind (.ok after) ∧
      ∀ setting : Setting, after.lookup setting =
        ((setting.given entries).map some).or (found.lookup setting) := by
  induction entries generalizing found with
  | nil => exact ⟨found, returns_pure found, fun _ => rfl⟩
  | cons entry rest ih =>
      obtain ⟨key, text⟩ := entry
      rw [List.map_cons, overrides.go]
      rcases named : Setting.ofKey? key with _ | setting
      · obtain ⟨after, returned, looked⟩ := ih found
        refine ⟨after, (returns_log _ _ _).bind_ok returned, fun setting => ?_⟩
        have other : ¬ Setting.capitals key = setting.name := fun same => by
          rw [Setting.ofKey?_eq_some_iff.mpr same] at named
          cases named
        rw [looked, Setting.given_cons, if_neg other, Option.or_none]
      · obtain ⟨after, returned, looked⟩ := ih (Keyed.put setting (some text) found)
        refine ⟨after, returned, fun wanted => ?_⟩
        have names := Setting.ofKey?_eq_some_iff.mp named
        rw [looked, Setting.given_cons, Keyed.lookup_put]
        by_cases same : wanted = setting
        · subst same
          rw [if_pos names, beq_self_eq_true, if_pos rfl]
          cases wanted.given rest <;> rfl
        · have other : ¬ Setting.capitals key = wanted.name := fun spelled => by
            rw [Setting.ofKey?_eq_some_iff.mpr spelled] at named
            exact same (Option.some.inj named)
          rw [if_neg other, beq_eq_false_iff_ne.mpr same, if_neg Bool.false_ne_true, Option.or_none]

private theorem readConfigMap_returns (loader : Loader) (environment : List (String × String))
    (reading : ConfigMapReading) :
    ∃ found, (loader.readConfigMap ⟨environment, reading.answer⟩).Returns kind (.ok found) ∧
      ∀ setting : Setting, found.lookup setting = (setting.given reading.found).map some := by
  cases reading with
  | noClient => exact ⟨[], returns_pure [], fun _ => rfl⟩
  | noData => exact ⟨[], (returns_note _).bind_ok (returns_pure []), fun _ => rfl⟩
  | refused status reason body =>
      refine ⟨[], (returns_note _).bind_ok ?_, fun _ => rfl⟩
      dsimp only
      split
      all_goals
        refine (returns_log _ _ _).bind_ok ?_
        exact returns_pure []
  | entries texts =>
      obtain ⟨found, returned, looked⟩ := overrides_returns kind texts []
      exact ⟨found, (returns_note _).bind_ok returned, fun setting => by
        rw [looked, List.lookup_nil, Option.or_none]; rfl⟩

/-- A load comes to what the texts of the settings come to. -/
theorem load_returns (loader : Loader) (environment : List (String × String))
    (reading : ConfigMapReading) :
    (loader.load ⟨environment, reading.answer⟩).Returns kind
      ((Configuration.ofRaw fun setting => some (setting.textFrom environment reading.found)).map
        fun config => (config, loader.holding config)) := by
  obtain ⟨found, read, looked⟩ := loader.readConfigMap_returns kind environment reading
  have raw : rawValue environment found =
      fun setting => some (setting.textFrom environment reading.found) := by
    funext setting
    rw [rawValue, looked, Setting.textFrom]
    cases setting.given reading.found <;> rfl
  have ends : ∀ outcome : Except Fault Configuration, outcome.map (fun config =>
      (config, loader.holding config)) = outcome >>= fun config => .ok (config, loader.holding config) :=
    fun outcome => by cases outcome <;> rfl
  rw [load, ends, ← raw]
  refine (returns_log _ _ _).bind_ok (read.bind_ok ?_)
  have finish : ∀ messages : Configuration → String,
      (Act.ofExcept (Configuration.ofRaw (rawValue environment found)) >>= fun config =>
        Act.log .info .settings (messages config) >>= fun _ =>
          pure (config, loader.holding config)).Returns kind
        (Configuration.ofRaw (rawValue environment found) >>= fun config =>
          .ok (config, loader.holding config)) := by
    intro messages
    refine (returns_ofExcept _).bind fun config _ => (returns_log _ _ _).bind_ok ?_
    exact returns_pure _
  split
  · exact (returns_log _ _ _).bind_ok (finish _)
  · exact finish _

end

section

variable {loader : Loader} {environment : List (String × String)} {reading : ConfigMapReading}
  {session : Session}

/-- A load succeeds exactly with the values that all settings read. -/
theorem load_eq_ok_iff {config : Configuration} {later : Loader} :
    (loader.load ⟨environment, reading.answer⟩ session).1 = .ok (config, later) ↔
      later = loader.holding config ∧ ∀ setting : Setting,
        setting.Reads (setting.textFrom environment reading.found) (config.value setting) := by
  rw [(loader.load_returns anySession environment reading).comes,
    Outcome.map_eq_ok_iff, ← Configuration.ofRaw_eq_ok_iff]
  constructor
  · rintro ⟨read, same, pair⟩
    cases pair
    exact ⟨rfl, same⟩
  · rintro ⟨rfl, same⟩
    exact ⟨config, same, rfl⟩

/-- A load fails exactly with the fault of the first setting that cannot be read. -/
theorem load_eq_error_iff {fault : Fault} :
    (loader.load ⟨environment, reading.answer⟩ session).1 = .error fault ↔
      ∃ before setting after, Setting.validated = before ++ setting :: after ∧
        (∀ other ∈ before, other.Readable (other.textFrom environment reading.found)) ∧
        setting.check (setting.textFrom environment reading.found) = .error fault := by
  rw [(loader.load_returns anySession environment reading).comes,
    Outcome.map_eq_error_iff, Configuration.ofRaw_eq_error_iff]

/-- Where the texts of the settings are the same, so is what a load comes to. -/
theorem load_congr {other : ConfigMapReading}
    (same : ∀ setting : Setting, setting.given other.found = setting.given reading.found) :
    (loader.load ⟨environment, other.answer⟩ session).1 =
      (loader.load ⟨environment, reading.answer⟩ session).1 := by
  have texts : (fun setting : Setting => some (setting.textFrom environment other.found)) =
      fun setting => some (setting.textFrom environment reading.found) := by
    funext setting
    rw [Setting.textFrom, Setting.textFrom, same]
  rw [(loader.load_returns anySession environment other).comes,
    (loader.load_returns anySession environment reading).comes, texts]

end

/-- **A load reads each setting from its last source.** It comes to the configuration of the texts that
the sources give, if all of them can be read, and otherwise to a fault that names the first setting whose
text cannot. The order of entries for different settings is of no effect, nor are entries for none. -/
theorem load_reads (loader : Loader) (environment : List (String × String))
    (reading : ConfigMapReading) (session : Session) :
    let result := (loader.load ⟨environment, reading.answer⟩ session).1
    let text := fun setting : Setting => setting.textFrom environment reading.found
    (∀ config later, result = .ok (config, later) ↔ later = loader.holding config ∧
      ∀ setting : Setting, setting.Reads (text setting) (config.value setting)) ∧
    ((∃ config later, result = .ok (config, later)) ↔
      ∀ setting ∈ Setting.validated, setting.Readable (text setting)) ∧
    (∀ fault, result = .error fault →
      ∃ before setting after, Setting.validated = before ++ setting :: after ∧
        (∀ other ∈ before, other.Readable (text other)) ∧ ¬ setting.Readable (text setting) ∧
        fault.kind = .config ∧ setting.Named fault.message) ∧
    (∀ entries, reading = .entries entries →
      (∀ other, entries.Perm other → (entries.map fun entry => Setting.capitals entry.1).Nodup →
        (loader.load ⟨environment, (ConfigMapReading.entries other).answer⟩ session).1 = result) ∧
      let known := entries.filter fun entry => (Setting.ofKey? entry.1).isSome
      (loader.load ⟨environment, (ConfigMapReading.entries known).answer⟩ session).1 = result) := by
  intro result text
  refine ⟨fun config later => load_eq_ok_iff, ⟨?_, ?_⟩, ?_, ?_⟩
  · rintro ⟨config, later, same⟩ setting -
    exact ⟨_, (load_eq_ok_iff.mp same).2 setting⟩
  · intro readable
    rcases outcome : result with fault | ⟨config, later⟩
    · obtain ⟨before, setting, after, place, -, refused⟩ := load_eq_error_iff.mp outcome
      have member : setting ∈ Setting.validated := by
        rw [place]
        exact List.mem_append_right _ List.mem_cons_self
      obtain ⟨value, read⟩ := Setting.readable_iff.mp (readable setting member)
      rw [refused] at read
      cases read
    · exact ⟨config, later, rfl⟩
  · intro fault failed
    obtain ⟨before, setting, after, place, earlier, refused⟩ := load_eq_error_iff.mp failed
    obtain ⟨reason, rfl, named⟩ := Setting.check_error refused
    refine ⟨before, setting, after, place, earlier, ?_, rfl, named⟩
    rw [Setting.readable_iff, refused]
    exact nofun
  · rintro entries rfl
    refine ⟨fun other same apart => ?_, ?_⟩
    · exact load_congr fun setting => (Setting.given_perm same apart setting).symm
    · exact load_congr fun setting => Setting.given_filter_known entries setting

/-- Two keys that differ in case only name the same setting, and the later entry counts. -/
example : Setting.textFrom [("BUILD_WORKERS", "2")]
    [("build_workers", "3"), ("Build_Workers", "4"), ("unknown", "5")] .buildWorkers = "4" := by
  decide +kernel

end Loader

end SpotCapacity
