import SpotCapacity.Number.Decimal
import SpotCapacity.Proofs.Number.Significant

/-!
# Decimal arithmetic in exact numbers

Within the exponents of a context, a product of decimal numbers is the exact product with the digits of the
context (`Decimal.scale_of_covers`). The ceiling of a decimal number is that of its exact value
(`Decimal.ceiling_of_exact`). Both are stated of exact numbers, so that what several steps of a calculation
come to follows from laws of rounding.
-/

namespace SpotCapacity

private theorem digitCount_eq (n : ℕ) : digitCount n = Nat.log 10 n + 1 := by
  induction n using digitCount.induct with
  | case1 n small => rw [digitCount, if_pos small, Nat.log_of_lt small]
  | case2 n large ih =>
      have several : 0 < Nat.log 10 n := Nat.log_pos (by norm_num) (not_lt.mp large)
      rw [digitCount, if_neg large, ih, Nat.log_div_base, Nat.sub_add_cancel several]

private theorem lt_pow_digitCount (n : ℕ) : n < 10 ^ digitCount n := by
  rw [digitCount_eq]
  exact Nat.lt_pow_succ_log_self (by norm_num) n

/-- The place of the leading digit of a number that is written with an exponent. -/
theorem log_mul_zpow {coefficient : ℕ} (given : coefficient ≠ 0) (exponent : ℤ) :
    Int.log 10 ((coefficient : ℚ) * 10 ^ exponent) = exponent + digitCount coefficient - 1 := by
  have leading : exponent + digitCount coefficient - 1 = (Nat.log 10 coefficient : ℤ) + exponent := by
    rw [digitCount_eq]
    push_cast
    ring
  rw [leading]
  apply log_eq_of_between
  · rw [ten_zpow_add, zpow_natCast]
    apply mul_le_mul_of_nonneg_right _ (ten_zpow_pos exponent).le
    exact_mod_cast Nat.pow_log_le_self 10 given
  · rw [add_right_comm, ten_zpow_add]
    apply mul_lt_mul_of_pos_right _ (ten_zpow_pos exponent)
    exact_mod_cast Nat.lt_pow_succ_log_self (by norm_num) coefficient

namespace Decimal

/-- A magnitude with its sign. -/
def signed (negative : Bool) (magnitude : ℚ) : ℚ := if negative then -magnitude else magnitude

private theorem abs_signed (negative : Bool) (magnitude : ℚ) : |signed negative magnitude| = |magnitude| := by
  cases negative
  · rfl
  · exact abs_neg magnitude

private theorem signed_mul (negative : Bool) (magnitude factor : ℚ) :
    signed negative magnitude * factor = signed negative (magnitude * factor) := by
  cases negative
  · rfl
  · exact neg_mul magnitude factor

private theorem significant_signed (digits : ℕ) (negative : Bool) (magnitude : ℚ) :
    significant digits (signed negative magnitude) = signed negative (significant digits magnitude) := by
  cases negative
  · rfl
  · exact significant_neg digits magnitude

/-- The value of a finite decimal. -/
theorem toRat?_finite (negative : Bool) (coefficient : ℕ) (exponent : ℤ) :
    (finite negative coefficient exponent).toRat? =
      some (signed negative (coefficient * 10 ^ exponent)) := by
  have magnitude : (if 0 ≤ exponent then ((coefficient * Nat.pow 10 exponent.toNat : ℕ) : ℚ)
      else mkRat coefficient (Nat.pow 10 (-exponent).toNat)) = coefficient * 10 ^ exponent := by
    split
    · rename_i nonneg
      obtain ⟨places, rfl⟩ := Int.eq_ofNat_of_zero_le nonneg
      rw [Int.toNat_natCast, zpow_natCast, Nat.pow_eq]
      push_cast
      rfl
    · rename_i below
      obtain ⟨places, same⟩ := Int.exists_eq_neg_ofNat (not_le.mp below).le
      rw [same, neg_neg, Int.toNat_natCast, zpow_neg, zpow_natCast, Rat.mkRat_eq_div, Nat.pow_eq]
      push_cast
      rfl
  rw [toRat?, magnitude]
  rfl

/-- Only finite numbers have an exact value. -/
theorem finite_of_exact {number : Decimal} {v : ℚ} (exact : number.toRat? = some v) :
    ∃ negative coefficient exponent, number = finite negative coefficient exponent ∧
      v = signed negative (coefficient * 10 ^ exponent) := by
  cases number with
  | infinite negative => cases exact
  | nan signaling => cases exact
  | finite negative coefficient exponent =>
      rw [toRat?_finite] at exact
      exact ⟨negative, coefficient, exponent, rfl, (Option.some.inj exact).symm⟩

private theorem ceil_div (n : ℕ) {d : ℕ} (positive : 0 < d) :
    ⌈(n : ℚ) / d⌉ = ((n + d - 1) / d : ℕ) := by
  have divisor : (0 : ℚ) < d := by exact_mod_cast positive
  have low : d * ((n + d - 1) / d) ≤ n + d - 1 := Nat.mul_div_le _ d
  have high : n + d - 1 < d * ((n + d - 1) / d + 1) := Nat.lt_mul_div_succ _ positive
  rw [Nat.mul_succ] at high
  have strict : d * ((n + d - 1) / d) < n + d := by omega
  have reached : n ≤ d * ((n + d - 1) / d) := by omega
  apply Int.ceil_eq_iff.mpr
  rw [Int.cast_natCast, lt_div_iff₀ divisor, div_le_iff₀ divisor, sub_mul, one_mul, sub_lt_iff_lt_add,
    mul_comm]
  exact ⟨by exact_mod_cast strict, by exact_mod_cast reached⟩

private theorem ceil_div_of_lt {n d : ℕ} (small : n < d) : ⌈(n : ℚ) / d⌉ = if n = 0 then 0 else 1 := by
  rw [ceil_div n (Nat.zero_lt_of_lt small)]
  split
  · have nothing : (n + d - 1) / d = 0 := Nat.div_eq_of_lt (by omega)
    rw [nothing, Nat.cast_zero]
  · have one : (n + d - 1) / d = 1 := Nat.div_eq_of_lt_le (by omega) (by omega)
    rw [one, Nat.cast_one]

private theorem ceil_neg_div (n d : ℕ) : ⌈-((n : ℚ) / d)⌉ = -((n / d : ℕ) : ℤ) := by
  rw [Int.ceil_neg, Rat.floor_natCast_div_natCast, Int.natCast_ediv]

/-- The ceiling of a decimal number is that of its exact value. -/
theorem ceiling_of_exact {number : Decimal} {v : ℚ} (exact : number.toRat? = some v) :
    number.ceiling = .ok ⌈v⌉ := by
  obtain ⟨negative, coefficient, exponent, rfl, rfl⟩ := finite_of_exact exact
  by_cases nonneg : 0 ≤ exponent
  · obtain ⟨places, rfl⟩ := Int.eq_ofNat_of_zero_le nonneg
    have whole : (coefficient : ℚ) * 10 ^ (places : ℤ) = ((coefficient * 10 ^ places : ℕ) : ℤ) := by
      rw [zpow_natCast]
      push_cast
      rfl
    rw [ceiling, if_pos nonneg, Int.toNat_natCast, whole, Nat.pow_eq]
    cases negative
    · rw [signed, if_neg Bool.false_ne_true, Int.ceil_intCast]
      rfl
    · rw [signed, if_pos rfl, ← Int.cast_neg, Int.ceil_intCast]
      rfl
  · obtain ⟨places, rfl⟩ := Int.exists_eq_neg_ofNat (not_le.mp nonneg).le
    have quotient : (coefficient : ℚ) * 10 ^ (-(places : ℤ)) = coefficient / (10 ^ places : ℕ) := by
      rw [zpow_neg, zpow_natCast, Nat.cast_pow, Nat.cast_ofNat, div_eq_mul_inv]
    have unit : 0 < 10 ^ places := Nat.pow_pos (by norm_num)
    simp only [ceiling, if_neg nonneg, neg_neg, Int.toNat_natCast, quotient, Nat.pow_eq]
    split
    · rename_i few
      have small : coefficient < 10 ^ places :=
        (lt_pow_digitCount coefficient).trans_le (Nat.pow_le_pow_right (by norm_num) few)
      cases negative
      · rw [signed, if_neg Bool.false_ne_true, ceil_div_of_lt small]
        simp only [Bool.false_eq_true, false_or]
      · rw [signed, if_pos rfl, ceil_neg_div, Nat.div_eq_of_lt small]
        rfl
    · cases negative
      · rw [signed, if_neg Bool.false_ne_true, if_neg Bool.false_ne_true, ceil_div coefficient unit]
      · rw [signed, if_pos rfl, if_pos rfl, ceil_neg_div]

/-- The numbers whose leading digit lies within the exponents of a context. -/
def Context.Covers (context : Context) (v : ℚ) : Prop :=
  v = 0 ∨ (10 : ℚ) ^ context.minExponent ≤ |v| ∧ |v| ≤ 10 ^ context.maxExponent

namespace Context

variable {context : Context} {coefficient : ℕ} {exponent : ℤ}

private theorem lastPlace_mul_zpow (digits : ℕ) (given : coefficient ≠ 0) :
    lastPlace digits ((coefficient : ℚ) * 10 ^ exponent) =
      exponent + digitCount coefficient - digits := by
  rw [lastPlace, abs_of_nonneg (mul_nonneg coefficient.cast_nonneg (ten_zpow_pos exponent).le),
    log_mul_zpow given]
  ring

/-- Dropping the digits below the last place that is kept makes the rounded number. -/
theorem halfEven_kept (digits : ℕ) (given : coefficient ≠ 0) (exponent : ℤ) {dropped : ℕ}
    (below : dropped = (exponent + digitCount coefficient - digits - exponent).toNat) :
    (halfEven coefficient (10 ^ dropped) : ℚ) * 10 ^ (exponent + dropped) =
      significant digits (coefficient * 10 ^ exponent) := by
  by_cases short : digitCount coefficient ≤ digits
  · have none : dropped = 0 := by omega
    have few : HasDigits digits ((coefficient : ℚ) * 10 ^ exponent) := by
      refine ⟨coefficient, exponent, ?_, rfl⟩
      rw [Nat.abs_cast]
      exact_mod_cast (lt_pow_digitCount coefficient).trans_le
        (Nat.pow_le_pow_right (by norm_num) short)
    rw [significant_of_hasDigits few, none, pow_zero, halfEven_one, Nat.cast_zero, add_zero]
  · have place : lastPlace digits ((coefficient : ℚ) * 10 ^ exponent) = exponent + dropped := by
      rw [lastPlace_mul_zpow digits given]
      omega
    have quotient : (coefficient : ℚ) * 10 ^ exponent / 10 ^ (exponent + dropped : ℤ) =
        coefficient / (10 ^ dropped : ℕ) := by
      rw [ten_zpow_add, mul_comm (coefficient : ℚ),
        mul_div_mul_left _ _ (ten_zpow_pos exponent).ne', zpow_natCast]
      push_cast
      rfl
    rw [significant, place, quotient, nearestEven_div _ (Nat.pow_pos (by norm_num)), Int.cast_natCast]

/-- A number that a context covers is rounded to its digits. -/
theorem round_of_covers (several : 0 < context.digits) (negative : Bool)
    (covers : context.Covers (coefficient * 10 ^ exponent)) :
    ∃ number, context.round negative coefficient exponent = .ok number ∧
      number.toRat? =
        some (signed negative (significant context.digits (coefficient * 10 ^ exponent))) := by
  by_cases given : coefficient = 0
  · refine ⟨finite negative 0 0, by rw [round, if_pos given], ?_⟩
    rw [toRat?_finite, given, Nat.cast_zero, zero_mul, zero_mul, significant_zero]
  have positive : (0 : ℚ) < coefficient * 10 ^ exponent :=
    mul_pos (by exact_mod_cast Nat.pos_of_ne_zero given) (ten_zpow_pos exponent)
  obtain ⟨least, most⟩ := covers.resolve_left positive.ne'
  have size := log_mul_zpow given exponent
  have lowest : max (exponent + digitCount coefficient - context.digits) context.leastExponent =
      exponent + digitCount coefficient - context.digits := by
    have leading := (Int.zpow_le_iff_le_log (b := 10) (by norm_num) positive).mp
      (by rwa [abs_of_pos positive] at least)
    rw [size] at leading
    rw [leastExponent]
    omega
  obtain ⟨dropped, below⟩ : ∃ dropped : ℕ,
    dropped = (exponent + digitCount coefficient - context.digits - exponent).toNat := ⟨_, rfl⟩
  have value := halfEven_kept context.digits given exponent below
  generalize same : halfEven coefficient (10 ^ dropped) = kept at value
  have inside : ¬ (kept ≠ 0 ∧
      context.maxExponent < exponent + dropped + digitCount kept - 1) := by
    rintro ⟨some, beyond⟩
    have top := (abs_significant_mem several least most).2
    rw [← value, abs_of_nonneg (mul_nonneg kept.cast_nonneg (ten_zpow_pos _).le)] at top
    have leading : Int.log 10 ((kept : ℚ) * 10 ^ (exponent + dropped : ℤ)) ≤ context.maxExponent := by
      rw [← Int.log_zpow (R := ℚ) (b := 10) (by norm_num) context.maxExponent]
      apply Int.log_mono_right _ (by exact_mod_cast top)
      exact mul_pos (by exact_mod_cast Nat.pos_of_ne_zero some) (ten_zpow_pos _)
    rw [log_mul_zpow some] at leading
    omega
  have whole : ¬ digitCount coefficient < dropped := by omega
  refine ⟨finite negative kept (exponent + dropped), ?_, by rw [toRat?_finite, value]⟩
  simp only [round, if_neg given, lowest, ← below, if_neg whole, Nat.pow_eq, same, if_neg inside]

end Context

/-- **A product with a positive number has the digits of the exact product.** -/
theorem scale_of_covers {context : Context} (several : 0 < context.digits) {number : Decimal} {v : ℚ}
    (exact : number.toRat? = some v) {factor : ℕ} {shift : ℤ}
    (covers : context.Covers (v * (factor * 10 ^ shift))) :
    ∃ product, number.scale context factor shift = .ok product ∧
      product.toRat? = some (significant context.digits (v * (factor * 10 ^ shift))) := by
  obtain ⟨negative, coefficient, exponent, rfl, rfl⟩ := finite_of_exact exact
  have magnitude : signed negative (coefficient * 10 ^ exponent) * (factor * 10 ^ shift) =
      signed negative ((coefficient * factor : ℕ) * 10 ^ (exponent + shift)) := by
    rw [signed_mul, ten_zpow_add, Nat.cast_mul, mul_mul_mul_comm]
  rw [magnitude] at covers ⊢
  rw [significant_signed, scale]
  apply Context.round_of_covers several
  rcases covers with zero | inside
  · left
    rwa [← abs_eq_zero, abs_signed, abs_eq_zero] at zero
  · right
    rwa [abs_signed] at inside

end Decimal

end SpotCapacity
