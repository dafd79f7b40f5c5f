/-!
# Division to the nearest integer

`halfEven n d` is the integer nearest to `n / d`; of two equally near it is the even one. Decimal
and binary rounding both come down to it. `halfEven_le` and `le_halfEven` keep it within half a
unit of the quotient, `halfEven_mul_left` says that exact quotients are left as they are.
-/

namespace SpotCapacity

/-- The integer nearest to `n / d`, a tie going to the even neighbour. -/
def halfEven (n d : Nat) : Nat :=
  let quotient := n / d
  let remainder := n % d
  if 2 * remainder < d then quotient
  else if d < 2 * remainder then quotient + 1
  else if quotient % 2 = 0 then quotient
  else quotient + 1

/-- The nearest integer exceeds the quotient by at most half a unit. -/
theorem halfEven_le (n : Nat) {d : Nat} (positive : 0 < d) :
    2 * (d * halfEven n d) ≤ 2 * n + d := by
  have split_n := Nat.div_add_mod n d
  have small := Nat.mod_lt n positive
  simp only [halfEven]
  split
  · rw [← split_n, Nat.mul_add_div positive]
    simp only [Nat.div_eq_of_lt small, Nat.add_zero]
    omega
  · have up : d * (n / d + 1) = d * (n / d) + d := by rw [Nat.mul_add, Nat.mul_one]
    split
    · omega
    · split <;> omega

/-- The nearest integer falls short of the quotient by at most half a unit. -/
theorem le_halfEven (n : Nat) {d : Nat} (positive : 0 < d) :
    2 * n ≤ 2 * (d * halfEven n d) + d := by
  have split_n := Nat.div_add_mod n d
  have small := Nat.mod_lt n positive
  have up : d * (n / d + 1) = d * (n / d) + d := by rw [Nat.mul_add, Nat.mul_one]
  simp only [halfEven]
  split
  · omega
  · split
    · omega
    · split <;> omega

@[simp] theorem halfEven_one (n : Nat) : halfEven n 1 = n := by
  simp [halfEven, Nat.mod_one]

/-- A quotient that is an integer is not changed. -/
theorem halfEven_mul_left (n : Nat) {d : Nat} (positive : 0 < d) : halfEven (d * n) d = n := by
  simp [halfEven, Nat.mul_div_cancel_left n positive, positive]

end SpotCapacity
