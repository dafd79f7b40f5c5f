import Mathlib
import SpotCapacity.Metrics.Histogram

/-!
# Observed durations

A histogram counts every duration that is a number once (`Histogram.count_observe`). The difference of
two clock readings that are finite is a number (`Double.sub_ne_nan`).
-/

namespace SpotCapacity

namespace Double

private theorem round_ne_nan (value : Rat) : round value ≠ .nan := by
  unfold round
  dsimp only
  split
  · exact Double.noConfusion
  · split
    · exact Double.noConfusion
    · split <;> exact Double.noConfusion

/-- The difference of finite numbers is a number. -/
theorem sub_ne_nan {left right : Double} (finite : left.value?.isSome = true)
    (finite' : right.value?.isSome = true) : left - right ≠ .nan := by
  change left.add right.neg ≠ .nan
  cases left with
  | infinite negative => cases finite
  | nan => cases finite
  | finite value =>
      cases right with
      | infinite negative => cases finite'
      | nan => cases finite'
      | finite value' =>
          rw [neg]
          split
          · exact Double.noConfusion
          · exact round_ne_nan _
      | negativeZero => exact round_ne_nan _
  | negativeZero =>
      cases right with
      | infinite negative => cases finite'
      | nan => cases finite'
      | finite value' =>
          rw [neg]
          split <;> exact Double.noConfusion
      | negativeZero => exact Double.noConfusion

private theorem le_infinite {number : Double} (numeric : number ≠ .nan) : number ≤ .infinite false := by
  change number.ble (.infinite false) = true
  cases number with
  | finite value => rfl
  | negativeZero => rfl
  | infinite negative => cases negative <;> rfl
  | nan => exact absurd rfl numeric

end Double

namespace Histogram

private theorem length_countAt (duration : Double) (bounds : List Double) (counts : List Nat) :
    (countAt duration bounds counts).length = counts.length := by
  induction bounds generalizing counts with
  | nil => rfl
  | cons bound bounds ih =>
      cases counts with
      | nil => rfl
      | cons count counts =>
          rw [countAt]
          split
          · rfl
          · rw [List.length_cons, List.length_cons, ih]

/-- A duration within a bound is counted at one place. -/
theorem sum_countAt {duration : Double} {bounds : List Double} {counts : List Nat}
    (within : ∃ bound ∈ bounds, duration ≤ bound) (full : counts.length = bounds.length) :
    (countAt duration bounds counts).sum = counts.sum + 1 := by
  induction bounds generalizing counts with
  | nil =>
      obtain ⟨bound, member, -⟩ := within
      exact absurd member List.not_mem_nil
  | cons bound bounds ih =>
      cases counts with
      | nil => cases full
      | cons count counts =>
          rw [countAt]
          by_cases below : duration ≤ bound
          · rw [if_pos below, List.sum_cons, List.sum_cons]
            omega
          · rw [if_neg below, List.sum_cons, List.sum_cons]
            have later : ∃ bound ∈ bounds, duration ≤ bound := by
              obtain ⟨other, member, above⟩ := within
              cases List.mem_cons.mp member with
              | inl same => exact absurd (same ▸ above) below
              | inr rest => exact ⟨other, rest, above⟩
            have counted := ih later (Nat.succ.inj full)
            omega

def Full (histogram : Histogram) : Prop := histogram.counts.length = bounds.length

theorem empty_full : empty.Full := List.length_map _

theorem observe_full {histogram : Histogram} (full : histogram.Full) (duration : Double) :
    (histogram.observe duration).Full :=
  (length_countAt duration bounds histogram.counts).trans full

/-- A duration that is a number is counted once. -/
theorem count_observe {histogram : Histogram} (full : histogram.Full) {duration : Double}
    (numeric : duration ≠ .nan) : (histogram.observe duration).count = histogram.count + 1 := by
  have last : Double.infinite false ∈ bounds := List.mem_append_right _ List.mem_cons_self
  have counted := sum_countAt ⟨_, last, Double.le_infinite numeric⟩ full
  exact counted

end Histogram

end SpotCapacity
