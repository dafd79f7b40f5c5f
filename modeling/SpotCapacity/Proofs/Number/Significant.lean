import Mathlib
import SpotCapacity.Number.HalfEven

/-!
# Rounding to significant digits

`significant digits v` is the number `v` with a count of significant digits, rounded to nearest, ties to the
even last digit. It is stated of exact numbers, by the power of ten of the last digit that is kept
(`lastPlace`), without regard to how a number is written. Rounding is monotone (`significant_mono`), leaves
the numbers of few digits as they are (`significant_of_hasDigits`), and gives such a number
(`hasDigits_significant`). The place of the decimal point has no say in it (`significant_mul_zpow`).
-/

namespace SpotCapacity

/-! ### The nearest integer -/

/-- An integer that is nearest to a number, and the even one if there are two. -/
def NearestEven (x : ℚ) (n : ℤ) : Prop := 2 * |x - n| < 1 ∨ 2 * |x - n| = 1 ∧ Even n

/-- The integer nearest to a number; of two equally near it is the even one. -/
def nearestEven (x : ℚ) : ℤ :=
  if 2 * (x - ⌊x⌋) < 1 then ⌊x⌋
  else if 1 < 2 * (x - ⌊x⌋) then ⌊x⌋ + 1
  else if Even ⌊x⌋ then ⌊x⌋
  else ⌊x⌋ + 1

namespace NearestEven

variable {x y : ℚ} {m n : ℤ}

private theorem close (nearest : NearestEven x n) : 2 * |x - n| ≤ 1 := by
  rcases nearest with closer | ⟨tie, -⟩
  · exact closer.le
  · exact tie.le

private theorem even (nearest : NearestEven x n) (tie : 2 * |x - n| = 1) : Even n := by
  rcases nearest with closer | ⟨-, even⟩
  · exact absurd tie closer.ne
  · exact even

/-- Nearest integers are in the order of the numbers. -/
theorem le_of_le (first : NearestEven x m) (second : NearestEven y n) (order : x ≤ y) : m ≤ n := by
  by_contra above
  have next : n + 1 ≤ m := Int.add_one_le_iff.mpr (not_le.mp above)
  have nextRat : (n : ℚ) + 1 ≤ m := by exact_mod_cast next
  have firstLow := (abs_le.mp (show |x - m| ≤ 1 / 2 by linarith [first.close])).1
  have secondHigh := (abs_le.mp (show |y - n| ≤ 1 / 2 by linarith [second.close])).2
  -- There is no room between the two numbers, so that both are ties between neighbours.
  have neighbour : (m : ℚ) = n + 1 := by linarith
  have firstTie : x - m = -(1 / 2) := by linarith
  have secondTie : y - n = 1 / 2 := by linarith
  have firstEven : Even m := first.even (by rw [firstTie, abs_neg]; norm_num)
  have secondEven : Even n := second.even (by rw [secondTie]; norm_num)
  have same : m = n + 1 := by exact_mod_cast neighbour
  rw [same, Int.even_add_one] at firstEven
  exact firstEven secondEven

private theorem eq (first : NearestEven x m) (second : NearestEven x n) : m = n :=
  le_antisymm (first.le_of_le second le_rfl) (second.le_of_le first le_rfl)

private theorem neg (nearest : NearestEven x n) : NearestEven (-x) (-n) := by
  have mirrored : |-x - ((-n : ℤ) : ℚ)| = |x - n| := by
    rw [Int.cast_neg, ← neg_sub', abs_neg]
  rwa [NearestEven, mirrored, even_neg]

private theorem intCast (n : ℤ) : NearestEven (n : ℚ) n := by
  left
  rw [sub_self, abs_zero, mul_zero]
  exact one_pos

end NearestEven

/-- Rounding half to even gives an integer that is nearest, and even in a tie. -/
theorem nearestEven_spec (x : ℚ) : NearestEven x (nearestEven x) := by
  have low : 0 ≤ x - ⌊x⌋ := sub_nonneg.mpr (Int.floor_le x)
  have high : x - ⌊x⌋ < 1 := by linarith [Int.lt_floor_add_one x]
  have below : |x - ⌊x⌋| = x - ⌊x⌋ := abs_of_nonneg low
  have above : |x - ((⌊x⌋ + 1 : ℤ) : ℚ)| = 1 - (x - ⌊x⌋) := by
    rw [Int.cast_add, Int.cast_one, abs_of_nonpos (by linarith)]
    ring
  unfold nearestEven
  split_ifs with lower upper even
  · left
    rwa [below]
  · left
    rw [above]
    linarith
  · right
    rw [below]
    exact ⟨by linarith, even⟩
  · right
    rw [above]
    exact ⟨by linarith, Int.even_add_one.mpr even⟩

/-- Rounding half to even gives the one integer that is nearest, and even in a tie. -/
theorem nearestEven_eq_iff {x : ℚ} {n : ℤ} : nearestEven x = n ↔ NearestEven x n := by
  constructor
  · rintro rfl
    exact nearestEven_spec x
  · exact (nearestEven_spec x).eq

@[simp] theorem nearestEven_intCast (n : ℤ) : nearestEven n = n :=
  nearestEven_eq_iff.mpr (.intCast n)

theorem nearestEven_neg (x : ℚ) : nearestEven (-x) = -nearestEven x :=
  nearestEven_eq_iff.mpr (nearestEven_spec x).neg

/-- Rounding half to even keeps the order. -/
theorem nearestEven_mono {x y : ℚ} (order : x ≤ y) : nearestEven x ≤ nearestEven y :=
  (nearestEven_spec x).le_of_le (nearestEven_spec y) order

/-- Division to the nearest integer gives the integer nearest to the quotient. -/
theorem nearestEven_div (n : ℕ) {d : ℕ} (positive : 0 < d) :
    nearestEven ((n : ℚ) / d) = halfEven n d := by
  have divisor : (0 : ℚ) < d := by exact_mod_cast positive
  have whole : ⌊(n : ℚ) / d⌋ = ((n / d : ℕ) : ℤ) := by
    rw [Rat.floor_natCast_div_natCast, Int.natCast_ediv]
  have rest : (n : ℚ) / d - ((n / d : ℕ) : ℤ) = ((n % d : ℕ) : ℚ) / d := by
    have split_n : (n : ℚ) = d * (n / d : ℕ) + (n % d : ℕ) := by
      exact_mod_cast (Nat.div_add_mod n d).symm
    rw [Int.cast_natCast, eq_div_iff divisor.ne', sub_mul, div_mul_cancel₀ _ divisor.ne']
    linarith
  have below : 2 * (((n % d : ℕ) : ℚ) / d) < 1 ↔ 2 * (n % d) < d := by
    rw [← mul_div_assoc, div_lt_one divisor]
    exact_mod_cast Iff.rfl
  have above : 1 < 2 * (((n % d : ℕ) : ℚ) / d) ↔ d < 2 * (n % d) := by
    rw [← mul_div_assoc, one_lt_div divisor]
    exact_mod_cast Iff.rfl
  have even : Even ((n / d : ℕ) : ℤ) ↔ n / d % 2 = 0 := by
    rw [Int.even_coe_nat, Nat.even_iff]
  simp only [nearestEven, halfEven, whole, rest, below, above, even]
  split_ifs <;> norm_cast

/-! ### Significant digits -/

/-- The power of ten of the last digit, when the digits are counted from the leading one. -/
def lastPlace (digits : ℕ) (v : ℚ) : ℤ := Int.log 10 |v| + 1 - digits

/-- A number rounded to a count of significant digits, to nearest, ties to the even last digit. -/
def significant (digits : ℕ) (v : ℚ) : ℚ :=
  nearestEven (v / 10 ^ lastPlace digits v) * 10 ^ lastPlace digits v

/-- A number that can be written with a count of significant digits. -/
def HasDigits (digits : ℕ) (v : ℚ) : Prop :=
  ∃ (coefficient exponent : ℤ), |coefficient| < 10 ^ digits ∧ v = coefficient * 10 ^ exponent

/-- A power of ten is positive, whatever its exponent. -/
theorem ten_zpow_pos (exponent : ℤ) : (0 : ℚ) < 10 ^ exponent := zpow_pos (by norm_num) exponent

theorem ten_zpow_add (left right : ℤ) : (10 : ℚ) ^ (left + right) = 10 ^ left * 10 ^ right :=
  zpow_add₀ (by norm_num) left right

theorem ten_zpow_le {left right : ℤ} (order : left ≤ right) : (10 : ℚ) ^ left ≤ 10 ^ right :=
  zpow_le_zpow_right₀ (by norm_num) order

/-- The place of the leading digit is known from powers of ten around the number. -/
theorem log_eq_of_between {r : ℚ} {place : ℤ} (low : (10 : ℚ) ^ place ≤ r)
    (high : r < 10 ^ (place + 1)) : Int.log 10 r = place := by
  have positive : 0 < r := (ten_zpow_pos place).trans_le low
  have least : place ≤ Int.log 10 r := (Int.zpow_le_iff_le_log (by norm_num) positive).mp low
  have most : Int.log 10 r < place + 1 := (Int.lt_zpow_iff_log_lt (by norm_num) positive).mp high
  omega

variable {digits : ℕ} {v w : ℚ}

private theorem zpow_log_le (given : v ≠ 0) : (10 : ℚ) ^ Int.log 10 |v| ≤ |v| := by
  exact_mod_cast Int.zpow_log_le_self (b := 10) (by norm_num) (abs_pos.mpr given)

private theorem lt_zpow_log (v : ℚ) : |v| < (10 : ℚ) ^ (Int.log 10 |v| + 1) := by
  exact_mod_cast Int.lt_zpow_succ_log_self (b := 10) (by norm_num) |v|

/-- The power of ten above a number, by its digits and their last place. -/
theorem zpow_log_succ (digits : ℕ) (v : ℚ) :
    (10 : ℚ) ^ (Int.log 10 |v| + 1) = 10 ^ digits * 10 ^ lastPlace digits v := by
  rw [← zpow_natCast, ← ten_zpow_add, lastPlace]
  congr 1
  ring

@[simp] theorem significant_zero (digits : ℕ) : significant digits 0 = 0 := by
  have zero : nearestEven 0 = 0 := by exact_mod_cast nearestEven_intCast 0
  rw [significant, zero_div, zero, Int.cast_zero, zero_mul]

/-- Taking significant digits and changing the sign can be done in either order. -/
theorem significant_neg (digits : ℕ) (v : ℚ) : significant digits (-v) = -significant digits v := by
  have place : lastPlace digits (-v) = lastPlace digits v := by rw [lastPlace, abs_neg, lastPlace]
  rw [significant, place, neg_div, nearestEven_neg, Int.cast_neg, neg_mul, significant]

/-- A shift by a power of ten shifts the last place. -/
theorem lastPlace_mul_zpow (given : v ≠ 0) (shift : ℤ) :
    lastPlace digits (v * 10 ^ shift) = lastPlace digits v + shift := by
  have moved : Int.log 10 |v * 10 ^ shift| = Int.log 10 |v| + shift := by
    rw [abs_mul, abs_of_pos (ten_zpow_pos shift)]
    apply log_eq_of_between
    · rw [ten_zpow_add]
      exact mul_le_mul_of_nonneg_right (zpow_log_le given) (ten_zpow_pos shift).le
    · rw [add_right_comm, ten_zpow_add]
      exact mul_lt_mul_of_pos_right (lt_zpow_log v) (ten_zpow_pos shift)
  rw [lastPlace, moved, lastPlace]
  ring

/-- Moving the decimal point does not touch the digits. -/
theorem significant_mul_zpow (digits : ℕ) (v : ℚ) (shift : ℤ) :
    significant digits (v * 10 ^ shift) = significant digits v * 10 ^ shift := by
  by_cases given : v = 0
  · rw [given, zero_mul, significant_zero, zero_mul]
  have ratio : v * 10 ^ shift / (10 ^ lastPlace digits v * 10 ^ shift) = v / 10 ^ lastPlace digits v :=
    mul_div_mul_right _ _ (ten_zpow_pos shift).ne'
  rw [significant, lastPlace_mul_zpow given, ten_zpow_add, ratio, significant, mul_assoc]

/-- A number of few digits is not changed. -/
theorem significant_of_hasDigits (short : HasDigits digits v) : significant digits v = v := by
  obtain ⟨coefficient, exponent, few, rfl⟩ := short
  by_cases given : (coefficient : ℚ) * 10 ^ exponent = 0
  · rw [given, significant_zero]
  generalize value : (coefficient : ℚ) * 10 ^ exponent = v at given
  -- All digits of the number stand at the last place that is kept or above it.
  have above : lastPlace digits v ≤ exponent := by
    have bound : |v| < (10 : ℚ) ^ ((digits : ℤ) + exponent) := by
      rw [← value, abs_mul, abs_of_pos (ten_zpow_pos exponent), ten_zpow_add, zpow_natCast]
      apply mul_lt_mul_of_pos_right _ (ten_zpow_pos exponent)
      exact_mod_cast few
    have log := (Int.lt_zpow_iff_log_lt (b := 10) (by norm_num) (abs_pos.mpr given)).mp
      (by exact_mod_cast bound)
    rw [lastPlace]
    omega
  obtain ⟨count, rfl⟩ := Int.le.dest above
  have whole : v / 10 ^ lastPlace digits v = ((coefficient * 10 ^ count : ℤ) : ℚ) := by
    rw [ten_zpow_add, zpow_natCast] at value
    rw [div_eq_iff (ten_zpow_pos _).ne', Int.cast_mul, Int.cast_pow, Int.cast_ofNat, mul_assoc,
      mul_comm (10 ^ count), value]
  rw [significant, whole, nearestEven_intCast, ← whole, div_mul_cancel₀ _ (ten_zpow_pos _).ne']

private theorem hasDigits_zpow (several : 0 < digits) (exponent : ℤ) : HasDigits digits (10 ^ exponent) := by
  refine ⟨1, exponent, ?_, by rw [Int.cast_one, one_mul]⟩
  rw [abs_one]
  exact one_lt_pow₀ (by norm_num) several.ne'

/-- The negation of a number has as many digits. -/
theorem HasDigits.neg (short : HasDigits digits v) : HasDigits digits (-v) := by
  obtain ⟨coefficient, exponent, few, rfl⟩ := short
  exact ⟨-coefficient, exponent, by rwa [abs_neg], by rw [Int.cast_neg, neg_mul]⟩

/-- The digits of a number make an integer of at most that many digits, or the next power of ten. -/
theorem abs_digits_le (digits : ℕ) (v : ℚ) :
    |nearestEven (v / 10 ^ lastPlace digits v)| ≤ 10 ^ digits := by
  have inside : |v / 10 ^ lastPlace digits v| ≤ (10 ^ digits : ℤ) := by
    rw [abs_div, abs_of_pos (ten_zpow_pos _), div_le_iff₀ (ten_zpow_pos _)]
    push_cast
    rw [← zpow_log_succ]
    exact (lt_zpow_log v).le
  obtain ⟨low, high⟩ := abs_le.mp inside
  apply abs_le.mpr
  constructor
  · rw [← nearestEven_intCast (-10 ^ digits)]
    apply nearestEven_mono
    rwa [Int.cast_neg]
  · rw [← nearestEven_intCast (10 ^ digits)]
    exact nearestEven_mono high

/-- A rounded number has the digits that it was rounded to, also when a carry has made one more. -/
theorem hasDigits_significant (several : 0 < digits) (v : ℚ) :
    HasDigits digits (significant digits v) := by
  have carried : HasDigits digits ((10 : ℚ) ^ digits * 10 ^ lastPlace digits v) := by
    rw [← zpow_natCast, ← ten_zpow_add]
    exact hasDigits_zpow several _
  rcases (abs_digits_le digits v).lt_or_eq with few | carry
  · exact ⟨_, _, few, rfl⟩
  · rw [significant]
    rcases eq_or_eq_neg_of_abs_eq carry with same | same
    · rw [same, Int.cast_pow, Int.cast_ofNat]
      exact carried
    · rw [same, Int.cast_neg, Int.cast_pow, Int.cast_ofNat, neg_mul]
      exact carried.neg

/-- Rounding again to the same digits changes nothing. -/
theorem significant_significant (several : 0 < digits) (v : ℚ) :
    significant digits (significant digits v) = significant digits v :=
  significant_of_hasDigits (hasDigits_significant several v)

private theorem significant_nonneg (digits : ℕ) (nonneg : 0 ≤ v) : 0 ≤ significant digits v := by
  apply mul_nonneg _ (ten_zpow_pos _).le
  have zero : (0 : ℤ) ≤ nearestEven (v / 10 ^ lastPlace digits v) := by
    rw [← nearestEven_intCast 0]
    apply nearestEven_mono
    rw [Int.cast_zero]
    exact div_nonneg nonneg (ten_zpow_pos _).le
  exact_mod_cast zero

/-- Rounding does not pass the power of ten above a number. -/
theorem significant_le_zpow (digits : ℕ) (v : ℚ) :
    significant digits v ≤ 10 ^ (Int.log 10 |v| + 1) := by
  have top : (nearestEven (v / 10 ^ lastPlace digits v) : ℚ) ≤ 10 ^ digits := by
    exact_mod_cast (abs_le.mp (abs_digits_le digits v)).2
  calc significant digits v ≤ 10 ^ digits * 10 ^ lastPlace digits v :=
        mul_le_mul_of_nonneg_right top (ten_zpow_pos _).le
    _ = 10 ^ (Int.log 10 |v| + 1) := (zpow_log_succ digits v).symm

/-- Rounding does not pass the power of ten below a number. -/
theorem zpow_le_significant (several : 0 < digits) (positive : 0 < v) :
    10 ^ Int.log 10 |v| ≤ significant digits v := by
  obtain ⟨fewer, rfl⟩ := Nat.exists_eq_succ_of_ne_zero several.ne'
  have place : (10 : ℚ) ^ Int.log 10 |v| = 10 ^ fewer * 10 ^ lastPlace (fewer + 1) v := by
    rw [← zpow_natCast, ← ten_zpow_add, lastPlace]
    congr 1
    push_cast
    ring
  have bottom : (10 ^ fewer : ℤ) ≤ nearestEven (v / 10 ^ lastPlace (fewer + 1) v) := by
    rw [← nearestEven_intCast (10 ^ fewer)]
    apply nearestEven_mono
    rw [le_div_iff₀ (ten_zpow_pos _)]
    push_cast
    rw [← place]
    exact (zpow_log_le positive.ne').trans_eq (abs_of_pos positive)
  rw [place]
  apply mul_le_mul_of_nonneg_right _ (ten_zpow_pos _).le
  exact_mod_cast bottom

private theorem significant_mono_of_pos (several : 0 < digits) (positive : 0 < v) (order : v ≤ w) :
    significant digits v ≤ significant digits w := by
  have sizes : Int.log 10 |v| ≤ Int.log 10 |w| := by
    rw [abs_of_pos positive, abs_of_pos (positive.trans_le order)]
    exact Int.log_mono_right positive order
  rcases sizes.lt_or_eq with smaller | same
  · -- The numbers lie on two sides of a power of ten.
    calc significant digits v ≤ 10 ^ (Int.log 10 |v| + 1) := significant_le_zpow digits v
      _ ≤ 10 ^ Int.log 10 |w| := ten_zpow_le smaller
      _ ≤ significant digits w := zpow_le_significant several (positive.trans_le order)
  · have place : lastPlace digits v = lastPlace digits w := by rw [lastPlace, same, lastPlace]
    rw [significant, significant, place]
    apply mul_le_mul_of_nonneg_right _ (ten_zpow_pos _).le
    have quotients := div_le_div_of_nonneg_right order (ten_zpow_pos (lastPlace digits w)).le
    exact_mod_cast nearestEven_mono quotients

/-- **Rounding keeps the order of numbers.** -/
theorem significant_mono (several : 0 < digits) (order : v ≤ w) :
    significant digits v ≤ significant digits w := by
  rcases lt_or_ge 0 v with positive | low
  · exact significant_mono_of_pos several positive order
  rcases lt_or_ge w 0 with negative | high
  · have mirrored := significant_mono_of_pos several (neg_pos.mpr negative) (neg_le_neg order)
    rwa [significant_neg, significant_neg, neg_le_neg_iff] at mirrored
  · have below := significant_nonneg digits (neg_nonneg.mpr low)
    rw [significant_neg, neg_nonneg] at below
    exact below.trans (significant_nonneg digits high)

/-- The numbers between two powers of ten stay between them. -/
theorem abs_significant_mem {low high : ℤ} (several : 0 < digits) (least : (10 : ℚ) ^ low ≤ |v|)
    (most : |v| ≤ 10 ^ high) :
    (10 : ℚ) ^ low ≤ |significant digits v| ∧ |significant digits v| ≤ 10 ^ high := by
  have size : |significant digits v| = significant digits |v| := by
    rcases le_total 0 v with nonneg | nonpos
    · rw [abs_of_nonneg nonneg, abs_of_nonneg (significant_nonneg digits nonneg)]
    · have below := significant_nonneg digits (neg_nonneg.mpr nonpos)
      rw [abs_of_nonpos nonpos, significant_neg]
      rw [significant_neg, neg_nonneg] at below
      exact abs_of_nonpos below
  rw [size]
  constructor
  · rw [← significant_of_hasDigits (hasDigits_zpow several low)]
    exact significant_mono several least
  · rw [← significant_of_hasDigits (hasDigits_zpow several high)]
    exact significant_mono several most

end SpotCapacity
