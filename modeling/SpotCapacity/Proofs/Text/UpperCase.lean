import SpotCapacity.Text.UpperCase
import Mathlib

/-!
# Capitals have no other capitals

The mapping to upper case leaves its results alone (`Text.upper_upper`). The code points that have a
capital form and those that are one lie in rows, and no row of the former meets a row of the latter: either
one ends before the other begins, or their members are even in the one and odd in the other.
-/

namespace SpotCapacity.Text

/-- Code points at equal distances, from a first to a last one. -/
structure Row where
  first : Nat
  last : Nat
  stride : Nat

namespace Row

def single (n : Nat) : Row := ⟨n, n, 1⟩

def Has (row : Row) (n : Nat) : Prop :=
  row.first ≤ n ∧ n ≤ row.last ∧ (n - row.first) % row.stride = 0

/-- All members of the row are even, or all are odd. -/
def keepsParity (row : Row) : Bool := row.stride % 2 == 0 || row.first == row.last

/-- Two rows without a common member, as their ends and their parities tell. -/
def apart (row other : Row) : Bool :=
  row.last.blt other.first || other.last.blt row.first ||
    (row.keepsParity && other.keepsParity && row.first % 2 != other.first % 2)

variable {row other : Row} {n : Nat}

private theorem has_single (n : Nat) : (single n).Has n := ⟨le_rfl, le_rfl, Nat.mod_one _⟩

private theorem mod_two_of_has (parity : row.keepsParity = true) (member : row.Has n) :
    n % 2 = row.first % 2 := by
  obtain ⟨after, before, steps⟩ := member
  rw [keepsParity, Bool.or_eq_true, beq_iff_eq, beq_iff_eq] at parity
  rcases parity with even | alone
  · have even : 2 ∣ n - row.first :=
      (Nat.dvd_of_mod_eq_zero even).trans (Nat.dvd_of_mod_eq_zero steps)
    omega
  · have only : n = row.first := by omega
    rw [only]

private theorem not_has_of_apart (apart : row.apart other = true) (member : row.Has n) : ¬ other.Has n := by
  intro common
  simp only [Row.apart, Bool.or_eq_true, Bool.and_eq_true, Nat.blt_eq, bne_iff_ne] at apart
  rcases apart with (ends | ends) | ⟨⟨parity, otherParity⟩, differ⟩
  · exact absurd (ends.trans_le (common.1.trans member.2.1)) (lt_irrefl _)
  · exact absurd (ends.trans_le (member.1.trans common.2.1)) (lt_irrefl _)
  · exact differ ((mod_two_of_has parity member).symm.trans (mod_two_of_has otherParity common))

/-- A row that is moved as a whole has its members moved. -/
theorem has_shifted {shift : Int} (member : row.Has n) (within : 0 ≤ (row.first : Int) + shift) :
    Row.Has ⟨((row.first : Int) + shift).toNat, ((row.last : Int) + shift).toNat, row.stride⟩
      ((n : Int) + shift).toNat := by
  obtain ⟨after, before, steps⟩ := member
  have distance : ((n : Int) + shift).toNat - ((row.first : Int) + shift).toNat = n - row.first := by
    omega
  refine ⟨?_, ?_, ?_⟩
  · exact Int.toNat_le_toNat (by omega)
  · exact Int.toNat_le_toNat (by omega)
  · dsimp only
    rw [distance, steps]

end Row

/-- The code points that have another form in upper case. -/
def smallRows : List Row :=
  capitalSequences.map (fun entry => .single entry.1) ++
    capitalRuns.map fun (first, last, stride, _) => ⟨first, last, stride⟩

/-- The code points that are a form in upper case of others, or part of one. -/
def capitalRows : List Row :=
  capitalSequences.flatMap (fun entry => entry.2.map .single) ++
    capitalRuns.map fun (first, last, stride, shift) =>
      ⟨((first : Int) + shift).toNat, ((last : Int) + shift).toNat, stride⟩

private theorem capitalRows_apart :
    (capitalRows.all fun row => smallRows.all fun other => row.apart other) = true := by
  decide +kernel

/-- No capital comes to lie before the first code point. -/
theorem capitalRuns_shift : ∀ run ∈ capitalRuns, 0 ≤ (run.1 : Int) + run.2.2.2 := by
  decide +kernel

private theorem not_has_small {row : Row} {n : Nat} (capital : row ∈ capitalRows) (member : row.Has n) :
    ∀ other ∈ smallRows, ¬ other.Has n := fun other small =>
  Row.not_has_of_apart
    (List.all_eq_true.mp (List.all_eq_true.mp capitalRows_apart row capital) other small) member

private theorem upperChar_eq_self {c : Char} (own : ∀ row ∈ smallRows, ¬ row.Has c.toNat) :
    upperChar c = [c] := by
  have unlisted : capitalSequences.lookup c.toNat = none := by
    rw [List.lookup_eq_none_iff]
    intro entry listed
    rw [bne_iff_ne]
    intro same
    have small : Row.single entry.1 ∈ smallRows :=
      List.mem_append_left _ (List.mem_map_of_mem listed)
    exact own _ small (same ▸ Row.has_single _)
  have outside : capitalRuns.find? (fun (first, last, stride, _) =>
      first ≤ c.toNat && c.toNat ≤ last && (c.toNat - first) % stride == 0) = none := by
    rw [List.find?_eq_none]
    rintro ⟨first, last, stride, shift⟩ listed inside
    simp only [Bool.and_eq_true, decide_eq_true_eq, beq_iff_eq] at inside
    have small : ⟨first, last, stride⟩ ∈ smallRows :=
      List.mem_append_right _ (List.mem_map.mpr ⟨_, listed, rfl⟩)
    exact own _ small ⟨inside.1.1, inside.1.2, inside.2⟩
  simp only [upperChar, unlisted, outside]

/-- The form of a character in upper case is made of capitals, unless it is the character itself. -/
theorem eq_self_or_capital {c d : Char} (member : d ∈ upperChar c) :
    upperChar d = [d] ∨ ∃ row ∈ capitalRows, ∃ n, row.Has n ∧ d = Char.ofNat n := by
  rcases listed : capitalSequences.lookup c.toNat with _ | letters
  · rcases found : capitalRuns.find? (fun (first, last, stride, _) =>
        first ≤ c.toNat && c.toNat ≤ last && (c.toNat - first) % stride == 0) with
      _ | ⟨first, last, stride, shift⟩
    · have own : upperChar c = [c] := by simp only [upperChar, listed, found]
      rw [own, List.mem_singleton] at member
      subst member
      exact .inl own
    · have run := List.mem_of_find?_eq_some found
      have inside := List.find?_some found
      simp only [Bool.and_eq_true, decide_eq_true_eq, beq_iff_eq] at inside
      simp only [upperChar, listed, found, List.mem_singleton] at member
      have small : Row.Has ⟨first, last, stride⟩ c.toNat := ⟨inside.1.1, inside.1.2, inside.2⟩
      have shifted := Row.has_shifted small (capitalRuns_shift _ run)
      exact .inr ⟨_, List.mem_append_right _ (List.mem_map.mpr ⟨_, run, rfl⟩), _, shifted, member⟩
  · simp only [upperChar, listed, List.mem_map] at member
    obtain ⟨n, letter, rfl⟩ := member
    obtain ⟨before, after, place, -⟩ := List.lookup_eq_some_iff.mp listed
    have entry : (c.toNat, letters) ∈ capitalSequences := by
      rw [place]
      exact List.mem_append_right _ List.mem_cons_self
    have capital : Row.single n ∈ capitalRows :=
      List.mem_append_left _ (List.mem_flatMap.mpr ⟨_, entry, List.mem_map_of_mem letter⟩)
    exact .inr ⟨_, capital, n, Row.has_single n, rfl⟩

/-- A capital is its own capital. -/
theorem upperChar_of_mem {c d : Char} (member : d ∈ upperChar c) : upperChar d = [d] := by
  rcases eq_self_or_capital member with own | ⟨row, capital, n, inside, rfl⟩
  · exact own
  · by_cases valid : n.isValidChar
    · apply upperChar_eq_self
      rw [Char.toNat_ofNat, if_pos valid]
      exact not_has_small capital inside
    · -- a number that is no code point stands for the first one, which has no other form
      have none : Char.ofNat n = Char.ofNat 0 := by
        rw [← Char.ofNat_toNat (Char.ofNat n), Char.toNat_ofNat, if_neg valid]
      rw [none]
      decide +kernel

/-- A text in upper case is its own form in upper case. -/
theorem upper_upper (text : List Char) : upper (upper text) = upper text := by
  rw [upper, upper, List.flatMap_assoc]
  refine List.flatMap_congr fun c _ => ?_
  calc (upperChar c).flatMap upperChar
      = (upperChar c).flatMap fun d => [d] := List.flatMap_congr fun _ => upperChar_of_mem
    _ = upperChar c := List.flatMap_singleton' _

end SpotCapacity.Text
