import Mathlib

/-!
# Stable orders

Lists put in order by an integer key. `StablyOrdered` says that nothing is lost or doubled, that no
key is out of order, and that items of equal keys stay as they came, in either direction of the
order. Sorting by a key gives such a list (`stablyOrdered_mergeSort`).
-/

namespace SpotCapacity

variable {α : Type}

/-- One list is another put in order by a key. -/
structure StablyOrdered (key : α → Int) (precedes : Int → Int → Prop)
    (original ordered : List α) : Prop where
  perm : ordered.Perm original
  sorted : ordered.Pairwise fun left right => precedes (key left) (key right)
  ties : ∀ n, ordered.filter (key · = n) = original.filter (key · = n)

namespace StablyOrdered

variable {key : α → Int} {precedes : Int → Int → Prop} {original left right : List α}

/-- Items are left out of a list before or after it is put in order. -/
theorem filter (ordered : StablyOrdered key precedes original left) (keep : α → Bool) :
    StablyOrdered key precedes (original.filter keep) (left.filter keep) where
  perm := ordered.perm.filter keep
  sorted := ordered.sorted.sublist List.filter_sublist
  ties := fun n => by rw [List.filter_comm, ordered.ties, List.filter_comm]

/-- Lists in order that hold the same items, those of each key in the same places, are equal. -/
private theorem eq_of_sorted [Std.Antisymm precedes] (same : left.Perm right)
    (sorted : left.Pairwise fun first second => precedes (key first) (key second))
    (sorted' : right.Pairwise fun first second => precedes (key first) (key second))
    (ties : ∀ n, left.filter (key · = n) = right.filter (key · = n)) : left = right := by
  induction left generalizing right with
  | nil => exact same.nil_eq
  | cons first rest ih =>
      cases right with
      | nil => exact absurd same.symm.nil_eq (List.cons_ne_nil first rest).symm
      | cons other others =>
          -- Each of the two heads precedes the other one, or is the same.
          have keys : key first = key other := by
            rcases List.mem_cons.mp (same.mem_iff.mp List.mem_cons_self) with rfl | later
            · rfl
            · rcases List.mem_cons.mp (same.mem_iff.mpr List.mem_cons_self) with rfl | later'
              · rfl
              · exact Std.Antisymm.antisymm _ _ (List.rel_of_pairwise_cons sorted later')
                  (List.rel_of_pairwise_cons sorted' later)
          have heads := ties (key first)
          rw [List.filter_cons_of_pos (by simp), List.filter_cons_of_pos (by simp [keys])] at heads
          obtain rfl : first = other := List.head_eq_of_cons_eq heads
          refine congrArg (first :: ·) (ih same.cons_inv sorted.of_cons sorted'.of_cons fun n => ?_)
          have tied := ties n
          rw [List.filter_cons, List.filter_cons] at tied
          split at tied
          · exact List.tail_eq_of_cons_eq tied
          · exact tied

/-- A list is put in order in one way. -/
theorem unique [Std.Antisymm precedes] (one : StablyOrdered key precedes original left)
    (other : StablyOrdered key precedes original right) : left = right :=
  eq_of_sorted (one.perm.trans other.perm.symm) one.sorted other.sorted fun n =>
    (one.ties n).trans (other.ties n).symm

end StablyOrdered

section

variable (key : α → Int) (precedes : Int → Int → Prop) [DecidableRel precedes]

private theorem compare_trans [IsTrans Int precedes] (left middle right : α)
    (first : decide (precedes (key left) (key middle)) = true)
    (second : decide (precedes (key middle) (key right)) = true) :
    decide (precedes (key left) (key right)) = true :=
  decide_eq_true (IsTrans.trans _ _ _ (of_decide_eq_true first) (of_decide_eq_true second))

private theorem compare_total [Std.Total precedes] (left right : α) :
    (decide (precedes (key left) (key right)) || decide (precedes (key right) (key left))) =
      true := by
  rw [Bool.or_eq_true, decide_eq_true_eq, decide_eq_true_eq]
  exact Std.Total.total _ _

variable [Std.Total precedes] [IsTrans Int precedes]

/-- Items of one key are in order as they come, so sorting leaves them as they are. -/
private theorem filter_mergeSort (items : List α) (n : Int) :
    (items.mergeSort fun left right => precedes (key left) (key right)).filter (key · = n) =
      items.filter (key · = n) := by
  set sorted := items.mergeSort fun left right => precedes (key left) (key right)
  have tied : (items.filter (key · = n)).Pairwise
      fun left right => decide (precedes (key left) (key right)) = true := by
    apply List.pairwise_iff_forall_sublist.mpr
    intro left right pair
    have ofLeft : key left = n := by simpa using List.of_mem_filter (pair.subset (by simp))
    have ofRight : key right = n := by simpa using List.of_mem_filter (pair.subset (by simp))
    rw [decide_eq_true_eq, ofLeft, ofRight]
    exact (Std.Total.total n n).elim id id
  -- Sorting keeps this sublist as it is, and as a permutation holds nothing else of the key.
  have kept : (items.filter (key · = n)).Sublist sorted :=
    List.sublist_mergeSort (compare_trans key precedes) (compare_total key precedes) tied
      List.filter_sublist
  have inside : (items.filter (key · = n)).Sublist (sorted.filter (key · = n)) := by
    simpa only [List.filter_filter, Bool.and_self] using kept.filter (key · = n)
  have lengths : (sorted.filter (key · = n)).length = (items.filter (key · = n)).length :=
    ((List.mergeSort_perm items _).filter _).length_eq
  exact (inside.eq_of_length lengths.symm).symm

/-- Sorting by a key puts a list in order. -/
theorem stablyOrdered_mergeSort (items : List α) :
    StablyOrdered key precedes items
      (items.mergeSort fun left right => precedes (key left) (key right)) where
  perm := List.mergeSort_perm items _
  sorted :=
    (List.pairwise_mergeSort (compare_trans key precedes) (compare_total key precedes) items).imp
      of_decide_eq_true
  ties := filter_mergeSort key precedes items

end

end SpotCapacity
