import SpotCapacity.Fault
import Mathlib

/-!
# Outcomes

Values or faults, composed. A composition succeeds when all of its parts do, and a list of parts
fails with the first fault in its order (`mapM_eq_error`).
-/

namespace SpotCapacity.Outcome

variable {α β : Type} {ε : Type}

@[simp] theorem ok_bind (value : α) (next : α → Except ε β) :
    (Except.ok value >>= next) = next value := rfl

@[simp] theorem error_bind (fault : ε) (next : α → Except ε β) :
    (Except.error fault >>= next) = .error fault := rfl

/-- An outcome is in order exactly if it has a value. -/
theorem isOk_iff {outcome : Except ε α} : outcome.isOk = true ↔ ∃ value, outcome = .ok value := by
  cases outcome with
  | error fault => exact ⟨nofun, nofun⟩
  | ok value => exact ⟨fun _ => ⟨value, rfl⟩, fun _ => rfl⟩

/-- Two steps come to a result through a value of the first. -/
theorem bind_eq_ok_iff {outcome : Except ε α} {next : α → Except ε β} {result : β} :
    (outcome >>= next) = .ok result ↔ ∃ value, outcome = .ok value ∧ next value = .ok result := by
  cases outcome with
  | error fault => simp only [error_bind, reduceCtorEq, false_and, exists_false]
  | ok value => simp only [ok_bind, Except.ok.injEq, exists_eq_left']

/-- Two steps fail in the first of them, or in the second. -/
theorem bind_eq_error_iff {outcome : Except ε α} {next : α → Except ε β} {fault : ε} :
    (outcome >>= next) = .error fault ↔
      outcome = .error fault ∨ ∃ value, outcome = .ok value ∧ next value = .error fault := by
  cases outcome with
  | error other =>
      simp only [error_bind, Except.error.injEq, reduceCtorEq, false_and, exists_false, or_false]
  | ok value => simp only [ok_bind, reduceCtorEq, Except.ok.injEq, exists_eq_left', false_or]

/-- A mapped outcome comes to what the function makes of its value. -/
theorem map_eq_ok_iff {outcome : Except ε α} {f : α → β} {result : β} :
    outcome.map f = .ok result ↔ ∃ value, outcome = .ok value ∧ f value = result := by
  cases outcome with
  | error fault => exact ⟨nofun, nofun⟩
  | ok value => simp only [Except.map, Except.ok.injEq, exists_eq_left']

theorem map_eq_error_iff {outcome : Except ε α} {f : α → β} {fault : ε} :
    outcome.map f = .error fault ↔ outcome = .error fault := by
  cases outcome with
  | error other => simp only [Except.map, Except.error.injEq]
  | ok value => exact ⟨nofun, nofun⟩

/-- A list of parts succeeds with the list of their values. -/
theorem mapM_eq_ok_iff {part : α → Except ε β} {items : List α} {values : List β} :
    items.mapM part = .ok values ↔
      List.Forall₂ (fun item value => part item = .ok value) items values := by
  induction items generalizing values with
  | nil =>
      rw [List.mapM_nil, List.forall₂_nil_left_iff]
      exact ⟨fun same => (Except.ok.inj same).symm, fun same => same ▸ rfl⟩
  | cons item rest ih =>
      rw [List.mapM_cons, List.forall₂_cons_left_iff]
      simp only [bind_eq_ok_iff, ih]
      constructor
      · rintro ⟨value, first, others, later, same⟩
        exact ⟨value, others, first, later, (Except.ok.inj same).symm⟩
      · rintro ⟨value, others, first, later, rfl⟩
        exact ⟨value, first, others, later, rfl⟩

/-- If all items together have values, each of them has one. -/
theorem forall_ok_of_mapM {part : α → Except ε β} {items : List α} {values : List β}
    (came : items.mapM part = .ok values) : ∀ item ∈ items, ∃ value, part item = .ok value := by
  intro item member
  obtain ⟨place, inside, rfl⟩ := List.getElem_of_mem member
  have each := mapM_eq_ok_iff.mp came
  exact ⟨_, each.get inside (each.length_eq ▸ inside)⟩

/-- A list of parts fails with the fault of the first part that fails. -/
theorem mapM_eq_error {part : α → Except ε β} {before after : List α} {item : α} {fault : ε}
    (earlier : ∀ other ∈ before, ∃ value, part other = .ok value) (failed : part item = .error fault) :
    (before ++ item :: after).mapM part = .error fault := by
  induction before with
  | nil => rw [List.nil_append, List.mapM_cons, failed, error_bind]
  | cons first rest ih =>
      obtain ⟨value, succeeded⟩ := earlier first List.mem_cons_self
      rw [List.cons_append, List.mapM_cons, succeeded, ok_bind,
        ih fun other member => earlier other (List.mem_cons_of_mem _ member), error_bind]

/-- The parts of items fail with the first of them that fails. -/
theorem mapM_eq_error_iff {part : α → Except ε β} {items : List α} {fault : ε} :
    items.mapM part = .error fault ↔ ∃ before item after, items = before ++ item :: after ∧
      (∀ other ∈ before, ∃ value, part other = .ok value) ∧ part item = .error fault := by
  constructor
  · intro failed
    induction items with
    | nil => cases failed
    | cons first rest ih =>
        rw [List.mapM_cons, bind_eq_error_iff] at failed
        rcases failed with here | ⟨value, here, failed⟩
        · exact ⟨[], first, rest, rfl, List.forall_mem_nil _, here⟩
        · rcases bind_eq_error_iff.mp failed with later | ⟨values, -, ended⟩
          · obtain ⟨before, item, after, rfl, earlier, failing⟩ := ih later
            exact ⟨first :: before, item, after, rfl,
              List.forall_mem_cons.mpr ⟨⟨value, here⟩, earlier⟩, failing⟩
          · cases ended
  · rintro ⟨before, item, after, rfl, earlier, failing⟩
    exact mapM_eq_error earlier failing

/-- The values of outcomes, or the first fault among them. -/
def collect (outcomes : List (Except ε α)) : Except ε (List α) := outcomes.mapM id

@[simp] theorem collect_nil : collect ([] : List (Except ε α)) = .ok [] := rfl

@[simp] theorem collect_ok_cons (value : α) (outcomes : List (Except ε α)) :
    collect (.ok value :: outcomes) = (do
      let values ← collect outcomes
      .ok (value :: values)) := by
  rw [collect, List.mapM_cons, id_eq, ok_bind]
  rfl

@[simp] theorem collect_error_cons (fault : ε) (outcomes : List (Except ε α)) :
    collect (.error fault :: outcomes) = .error fault := by
  rw [collect, List.mapM_cons, id_eq, error_bind]

/-- Collecting the outcomes of items is mapping over them. -/
theorem collect_map (part : α → Except ε β) (items : List α) :
    collect (items.map part) = items.mapM part := by
  induction items with
  | nil => rfl
  | cons item rest ih =>
      rw [List.map_cons, List.mapM_cons]
      cases part item with
      | error fault => exact collect_error_cons fault _
      | ok value =>
          rw [collect_ok_cons, ih]
          rfl

/-- If each item has a value, all of them together have values. -/
theorem mapM_of_forall_ok {part : α → Except ε β} {items : List α}
    (succeed : ∀ item ∈ items, ∃ value, part item = .ok value) :
    ∃ values, items.mapM part = .ok values := by
  induction items with
  | nil => exact ⟨[], rfl⟩
  | cons item rest ih =>
      obtain ⟨⟨value, here⟩, others⟩ := List.forall_mem_cons.mp succeed
      obtain ⟨values, later⟩ := ih others
      exact ⟨value :: values, mapM_eq_ok_iff.mpr (.cons here (mapM_eq_ok_iff.mp later))⟩

end SpotCapacity.Outcome
