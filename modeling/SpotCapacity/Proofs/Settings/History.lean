import SpotCapacity.Proofs.Settings.Loading

/-!
# What a loader holds

A loader is asked to load its configuration or to give the one it holds, while the environment and the
ConfigMap change around it. After any such history it holds the configuration of the last load that came
to one, and has counted these loads (`Loader.holds_last_load`). A load that fails, wherever it fails,
leaves the loader as it was.
-/

namespace SpotCapacity

namespace Loader

/-- A call to a loader, or a change of what it loads from. -/
inductive Move where
  | load
  | get
  | changeEnvironment (environment : List (String × String))
  | changeConfigMap (answer : Option (Except ApiFailure (Option ConfigMapData)))

/-- What a move is answered with. A change has no answer. -/
abbrev Answer := Option (Except Fault Configuration)

/-- A loader, what it would load from now, and the session that it is called in. -/
structure Scene where
  loader : Loader
  input : ConfigInput
  session : Session

namespace Scene

/-- Calls the loader of a scene. A call that fails returns no loader, and the old one stays. -/
def call (scene : Scene) (act : Act (Configuration × Loader)) : Answer × Scene :=
  match act scene.session with
  | (.ok (config, loader), session) => (some (.ok config), { scene with loader, session })
  | (.error fault, session) => (some (.error fault), { scene with session })

def move (scene : Scene) : Move → Answer × Scene
  | .load => scene.call (scene.loader.load scene.input)
  | .get => scene.call (scene.loader.get scene.input)
  | .changeEnvironment environment =>
    (none, { scene with input := { scene.input with environment } })
  | .changeConfigMap answer => (none, { scene with input := { scene.input with configMap := answer } })

/-- The moves of a history with their answers, and the scene after them. -/
def play (scene : Scene) (moves : List Move) : List (Move × Answer) × Scene :=
  moves.foldl (fun (played, scene) move =>
    let (answer, next) := scene.move move
    (played ++ [(move, answer)], next)) ([], scene)

private theorem play_append (scene : Scene) (moves : List Move) (move : Move) :
    scene.play (moves ++ [move]) =
      let (played, last) := scene.play moves
      (played ++ [(move, (last.move move).1)], (last.move move).2) := by
  rw [play, List.foldl_append]
  rfl

end Scene

/-- One more move after the loads that came to a configuration. A `get` loads while none of them has. -/
def loadsWith (earlier : List Configuration) : Move × Answer → List Configuration
  | (.load, some (.ok config)) => earlier ++ [config]
  | (.get, some (.ok config)) => if earlier.isEmpty then [config] else earlier
  | _ => earlier

/-- The loads of a history that came to a configuration, in their order. -/
def loads (played : List (Move × Answer)) : List Configuration := played.foldl loadsWith []

/-- A loader after loads that came to the given configurations. -/
def afterLoads (space configMap : String) (loads : List Configuration) : Loader :=
  { space, configMap, held := loads.getLast?, version := loads.length, reloaded := !loads.isEmpty }

section

variable {space configMap : String} {earlier : List Configuration} (input : ConfigInput)

private theorem afterLoads_append (config : Configuration) :
    afterLoads space configMap (earlier ++ [config]) =
      (afterLoads space configMap earlier).holding config := by
  have some : (earlier ++ [config]).isEmpty = false := List.isEmpty_eq_false_iff.mpr (by simp)
  rw [afterLoads, List.getLast?_concat, List.length_append, some]
  rfl

private theorem get_of_held {loader : Loader} {config : Configuration} (held : loader.held = some config) :
    loader.get input = pure (config, loader) := by
  rw [get, held]

private theorem get_of_none {loader : Loader} (held : loader.held = none) :
    loader.get input = loader.load input := by
  rw [get, held]

private theorem call_load {scene : Scene} (current : scene.loader = afterLoads space configMap earlier) :
    (scene.call (scene.loader.load scene.input)).2.loader =
      afterLoads space configMap
        (loadsWith earlier (.load, (scene.call (scene.loader.load scene.input)).1)) := by
  rw [Scene.call]
  rcases ended : scene.loader.load scene.input scene.session with ⟨fault | ⟨config, later⟩, session⟩
  · exact current
  · obtain ⟨same, -⟩ := scene.loader.load_yields scene.input scene.session _ (congrArg Prod.fst ended)
    rw [loadsWith, afterLoads_append, ← current]
    exact same

/-- A move keeps the loader in step with the loads. -/
theorem move_keeps {scene : Scene} (current : scene.loader = afterLoads space configMap earlier)
    (move : Move) :
    (scene.move move).2.loader =
      afterLoads space configMap (loadsWith earlier (move, (scene.move move).1)) := by
  cases move with
  | load => exact call_load current
  | get =>
      -- Nothing is held before the first load, so that a `get` counts as one exactly when it loads.
      rcases earlier with _ | ⟨first, rest⟩
      · have unheld : scene.loader.held = none := by rw [current]; rfl
        have first : ∀ answer : Answer, loadsWith [] (.get, answer) = loadsWith [] (.load, answer) := by
          intro answer
          rcases answer with _ | _ | config <;> rfl
        rw [Scene.move, get_of_none scene.input unheld, first]
        exact call_load current
      · have held : scene.loader.held = some ((first :: rest).getLast (List.cons_ne_nil _ _)) := by
          rw [current, afterLoads, List.getLast?_eq_some_getLast (List.cons_ne_nil first rest)]
        rw [Scene.move, get_of_held scene.input held]
        exact current
  | changeEnvironment environment => exact current
  | changeConfigMap answer => exact current

/-- However a loader is used, it holds the configuration of its last load that succeeded. -/
theorem play_keeps (space configMap : String) (session : Session) (moves : List Move) :
    let (played, scene) := (Scene.mk (new space configMap) input session).play moves
    scene.loader = afterLoads space configMap (loads played) := by
  induction moves using List.reverseRecOn with
  | nil => rfl
  | append_singleton moves move ih =>
      rw [Scene.play_append]
      have kept := move_keeps ih move
      simp only [loads, List.foldl_append] at kept ⊢
      exact kept

/-- **A loader holds its last load.** After any history of a new loader, its version is the number of loads
that came to a configuration, it holds that of the last of them, and has a time of it when there is one.
A call that fails leaves the loader as it is. While a configuration is held, `get` gives it in every
session and does nothing, whatever there would be to load; while none is, it is a load. -/
theorem holds_last_load (space configMap : String) (session : Session) (moves : List Move) :
    let (played, scene) := (Scene.mk (new space configMap) input session).play moves
    let loader := scene.loader
    (loader.version = (loads played).length ∧ loader.held = (loads played).getLast? ∧
      (loader.reloaded = true ↔ loads played ≠ [])) ∧
    (∀ move fault, (scene.move move).1 = some (.error fault) → (scene.move move).2.loader = loader) ∧
    (∀ config, loader.held = some config →
      ∀ input session, loader.get input session = (.ok (config, loader), session)) ∧
    (loader.held = none → ∀ input, loader.get input = loader.load input) := by
  have kept := play_keeps input space configMap session moves
  revert kept
  rcases (Scene.mk (new space configMap) input session).play moves with ⟨played, scene⟩
  intro (kept : scene.loader = afterLoads space configMap (loads played))
  refine ⟨?_, fun move fault failed => ?_, fun config held input session => ?_, fun unheld input => ?_⟩
  · rw [kept]
    refine ⟨rfl, rfl, ?_⟩
    rw [afterLoads, Bool.not_eq_true', List.isEmpty_eq_false_iff]
  · have stepped := move_keeps kept move
    rw [failed] at stepped
    refine stepped.trans (Eq.trans ?_ kept.symm)
    cases move <;> rfl
  · rw [get_of_held input held]
    rfl
  · exact get_of_none input unheld

end

end Loader

end SpotCapacity
