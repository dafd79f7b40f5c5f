import SpotCapacity.Proofs.Number.Decimal
import SpotCapacity.Proofs.Outcome
import SpotCapacity.Quantity

/-!
# What quantities come to

A quantity denotes an exact amount, the number as it is written times the power of its suffix
(`Quantity.exactValue?`); every text that is read as a finite amount does (`Quantity.exists_exact_of_valueOfText`).
Its millicores are rounded twice on the way, once when the suffix is applied and once when the amount is
multiplied by a thousand. Neither is seen in the result: as far as exponents of decimal arithmetic reach, it is
the ceiling of a thousand times the amount, taken with 28 significant digits (`Quantity.millicores_of_exact`).
-/

namespace SpotCapacity

namespace Double

/-- The exact value of a number. What is finite is a fraction over a power of two. -/
def exactValue? (number : Double) : Option ℚ := number.value?.filter fun v => v.den = 2 ^ v.den.log2

private theorem den_scaled (significand exponent : ℤ) :
    (scaled significand exponent).den = 2 ^ (scaled significand exponent).den.log2 := by
  have power : ∃ places : ℕ, (scaled significand exponent).den = 2 ^ places := by
    rw [scaled]
    split
    · exact ⟨0, rfl⟩
    · have divides := Rat.den_dvd significand (Nat.pow 2 (-exponent).toNat)
      rw [Rat.mkRat_eq_divInt]
      obtain ⟨places, -, same⟩ := (Nat.dvd_prime_pow Nat.prime_two).mp (Int.natCast_dvd_natCast.mp divides)
      exact ⟨places, same⟩
  obtain ⟨places, same⟩ := power
  rw [same, Nat.log2_two_pow]

/-- Every number that rounding makes has an exact value, unless it is infinite. -/
theorem exactValue?_round (value : ℚ) : (round value).exactValue? = (round value).value? := by
  have kept : ∀ v : ℚ, v.den = 2 ^ v.den.log2 → (finite v).exactValue? = (finite v).value? :=
    fun v dyadic => Option.filter_some_pos (decide_eq_true dyadic)
  simp only [round]
  split_ifs
  · rfl
  · rfl
  · apply kept
    rw [Rat.neg_den]
    exact den_scaled _ _
  · exact kept _ (den_scaled _ _)

end Double

namespace QuantitySuffix

/-- The units that have a binary form. -/
def binaryLetters : List Char := ['K', 'M', 'G', 'T', 'P', 'E']

/-- The factor of a unit: a power of 1000, or of 1024 for a binary unit. -/
def unit? (suffix : QuantitySuffix) : Option ℚ :=
  match powers.lookup suffix.letter with
  | none => none
  | some power =>
    if suffix.binary then
      if suffix.letter ∈ binaryLetters then some (1024 ^ power) else none
    else some (1000 ^ power)

/-- The factor of a suffix is its unit. -/
theorem unit?_eq (suffix : QuantitySuffix) :
    suffix.unit? = suffix.factor?.map fun factor => (factor.1 : ℚ) * 10 ^ factor.2 := by
  have letters : ∀ entry ∈ powers, entry.1 ∈ binaryLetters ↔ ¬ (entry.1 = 'k' ∨ entry.2 < 0) := by
    decide
  rw [unit?, factor?]
  cases found : powers.lookup suffix.letter with
  | none => rfl
  | some power =>
      obtain ⟨before, after, place, -⟩ := List.lookup_eq_some_iff.mp found
      have binary : suffix.letter ∈ binaryLetters ↔ ¬ (suffix.letter = 'k' ∨ power < 0) :=
        letters (suffix.letter, power) (by rw [place]; exact List.mem_append_right _ List.mem_cons_self)
      dsimp only [Option.bind_eq_bind, Option.bind_some]
      by_cases twos : suffix.binary = true
      · rw [if_pos twos, if_pos twos]
        by_cases refused : suffix.letter = 'k' ∨ power < 0
        · rw [if_neg (not_not.mpr refused ∘ binary.mp), if_pos refused]
          rfl
        · obtain ⟨times, rfl⟩ := Int.eq_ofNat_of_zero_le (not_lt.mp (not_or.mp refused).2)
          rw [if_pos (binary.mpr refused), if_neg refused, Option.map_some, zpow_natCast, zpow_zero,
            mul_one, Int.toNat_natCast, Nat.pow_eq, Nat.cast_pow, Nat.cast_ofNat]
      · have thousand : (1000 : ℚ) = 10 ^ (3 : ℤ) := by norm_num
        rw [if_neg twos, if_neg twos, Option.map_some, Nat.cast_one, one_mul, thousand, zpow_mul]

end QuantitySuffix

namespace Quantity

/-- The exact amount that a quantity denotes: its number as it is written, times its unit. -/
def exactValue? : Quantity → Option ℚ
  | .text written =>
    let number := (Numeral.read? (split written.toList).1).bind Decimal.toRat?
    match (split written.toList).2 with
    | none => number
    | some suffix => number.bind fun v => suffix.unit?.map (v * ·)
  | .integer n => some (n : ℚ)
  | .boolean flag => some (if flag then 1 else 0)
  | .double number => number.exactValue?

/-- An amount that is zero or of a size that decimal arithmetic can hold, with room for a unit. -/
def Moderate (v : ℚ) : Prop :=
  v = 0 ∨ (10 : ℚ) ^ (-900000 : ℤ) ≤ |v| ∧ |v| ≤ 10 ^ (900000 : ℤ)

namespace Moderate

variable {v : ℚ}

/-- An amount of moderate size is covered by decimal arithmetic, also after a moderate shift. -/
theorem covers (moderate : Moderate v) {shift : ℤ} (low : -99999 ≤ shift) (high : shift ≤ 99999) :
    Decimal.Context.standard.Covers (v * 10 ^ shift) := by
  rcases moderate with rfl | ⟨least, most⟩
  · exact .inl (zero_mul _)
  right
  rw [abs_mul, abs_of_pos (ten_zpow_pos shift)]
  constructor
  · calc (10 : ℚ) ^ Decimal.Context.standard.minExponent ≤ 10 ^ (-900000 + shift) :=
          ten_zpow_le (by change (-999999 : ℤ) ≤ _; omega)
      _ = 10 ^ (-900000 : ℤ) * 10 ^ shift := ten_zpow_add _ _
      _ ≤ |v| * 10 ^ shift := mul_le_mul_of_nonneg_right least (ten_zpow_pos shift).le
  · calc |v| * 10 ^ shift ≤ 10 ^ (900000 : ℤ) * 10 ^ shift :=
          mul_le_mul_of_nonneg_right most (ten_zpow_pos shift).le
      _ = 10 ^ (900000 + shift) := (ten_zpow_add _ _).symm
      _ ≤ 10 ^ Decimal.Context.standard.maxExponent :=
          ten_zpow_le (by change _ ≤ (999999 : ℤ); omega)

/-- A number between powers of ten of moderate size is moderate. -/
theorem of_between (low high : ℤ) (floor : -900000 ≤ low) (roof : high ≤ 900000)
    (least : (10 : ℚ) ^ low ≤ v) (most : v ≤ 10 ^ high) : Moderate v := by
  right
  rw [abs_of_pos ((ten_zpow_pos low).trans_le least)]
  exact ⟨(ten_zpow_le floor).trans least, most.trans (ten_zpow_le roof)⟩

/-- A number of moderate size still is when it is rounded. -/
theorem rounded (moderate : Moderate v) : Moderate (significant 28 v) := by
  rcases moderate with rfl | ⟨least, most⟩
  · exact .inl (significant_zero 28)
  · exact .inr (abs_significant_mem (by norm_num) least most)

end Moderate

private theorem toRat?_ofInt (n : ℤ) : (Decimal.ofInt n).toRat? = some (n : ℚ) := by
  rw [Decimal.ofInt, Decimal.toRat?_finite, zpow_zero, mul_one, Option.some.injEq, Decimal.signed]
  by_cases negative : n < 0
  · rw [if_pos (decide_eq_true negative), Nat.cast_natAbs, abs_of_neg negative, Int.cast_neg, neg_neg]
  · rw [if_neg (by simpa using negative), Nat.cast_natAbs, abs_of_nonneg (not_lt.mp negative)]

/-- A fraction over a power of two is written exactly with as many places. -/
theorem toRat?_ofDouble {number : Double} {v : ℚ} (exact : number.exactValue? = some v) :
    (Decimal.ofDouble number).toRat? = some v := by
  obtain ⟨value, dyadic⟩ := Option.filter_eq_some_iff.mp exact
  cases number with
  | nan => cases value
  | infinite negative => cases value
  | negativeZero =>
      cases value
      rw [Decimal.ofDouble, Decimal.toRat?_finite, Nat.cast_zero, zero_mul]
      rfl
  | finite w =>
      cases value
      have denominator : (v.den : ℚ) = 2 ^ v.den.log2 := by exact_mod_cast of_decide_eq_true dyadic
      rw [Decimal.ofDouble, Decimal.toRat?_finite]
      generalize v.den.log2 = places at denominator
      have fraction : |v| = v.num.natAbs / 2 ^ places := by
        conv_lhs => rw [← Rat.num_div_den v]
        have power : |(2 : ℚ) ^ places| = 2 ^ places := abs_of_pos (pow_pos two_pos places)
        rw [abs_div, denominator, power, Nat.cast_natAbs, Int.cast_abs]
      have magnitude : ((v.num.natAbs * Nat.pow 5 places : ℕ) : ℚ) * 10 ^ (-(places : ℤ)) = |v| := by
        have ten : (10 : ℚ) ^ places = 2 ^ places * 5 ^ places := by
          rw [← mul_pow]
          norm_num
        rw [fraction, zpow_neg, zpow_natCast, ten, Nat.pow_eq, ← div_eq_mul_inv]
        push_cast
        exact mul_div_mul_right _ _ (pow_pos (by norm_num) places).ne'
      rw [magnitude, Option.some.injEq, Decimal.signed]
      by_cases negative : v.num < 0
      · rw [if_pos (decide_eq_true negative), abs_of_neg (Rat.num_neg.mp negative), neg_neg]
      · rw [if_neg (by simpa using negative), abs_of_nonneg (Rat.num_nonneg.mp (not_lt.mp negative))]

section

variable {written : String} {digits : List Char} {number amount : Decimal}

/-- A number without a suffix is not rounded when it is read. -/
theorem valueOfText_plain (parts : split written.toList = (digits, none))
    (read : Numeral.read? digits = some number) : valueOfText written = .ok number := by
  simp only [valueOfText, parts, read]
  rfl

/-- A number with a suffix is rounded once when it is read. -/
theorem valueOfText_suffixed {suffix : QuantitySuffix} {factor : ℕ} {shift : ℤ}
    (parts : split written.toList = (digits, some suffix)) (read : Numeral.read? digits = some number)
    (units : suffix.factor? = some (factor, shift))
    (scaled : number.scale .standard factor shift = .ok amount) : valueOfText written = .ok amount := by
  simp only [valueOfText, parts, read, Outcome.ok_bind, units, scaled]
  rfl

end

/-- An amount that is read has the digits of the exact one, whether it was rounded or not. -/
theorem value_of_exact {quantity : Quantity} {v : ℚ} (exact : quantity.exactValue? = some v)
    (moderate : Moderate v) :
    ∃ amount w, quantity.value = .ok amount ∧ amount.toRat? = some w ∧ Moderate w ∧
      significant 28 w = significant 28 v := by
  cases quantity with
  | integer n =>
      cases exact
      exact ⟨_, _, rfl, toRat?_ofInt n, moderate, rfl⟩
  | boolean flag =>
      refine ⟨_, _, rfl, toRat?_ofInt _, ?_, ?_⟩
      · cases flag <;> cases exact <;> simpa using moderate
      · cases flag <;> cases exact <;> simp
  | double number => exact ⟨_, _, rfl, toRat?_ofDouble exact, moderate, rfl⟩
  | text written =>
      rcases parts : split written.toList with ⟨digits, suffix⟩
      cases suffix with
      | none =>
          simp only [exactValue?, parts] at exact
          obtain ⟨number, read, value⟩ := Option.bind_eq_some_iff.mp exact
          exact ⟨number, v, valueOfText_plain parts read, value, moderate, rfl⟩
      | some suffix =>
          simp only [exactValue?, parts] at exact
          obtain ⟨w, numeral, product⟩ := Option.bind_eq_some_iff.mp exact
          obtain ⟨number, read, value⟩ := Option.bind_eq_some_iff.mp numeral
          obtain ⟨unit, known, rfl⟩ := Option.map_eq_some_iff.mp product
          rw [QuantitySuffix.unit?_eq] at known
          obtain ⟨⟨factor, shift⟩, units, rfl⟩ := Option.map_eq_some_iff.mp known
          have covers : Decimal.Context.standard.Covers (w * (factor * 10 ^ shift) * 10 ^ (0 : ℤ)) :=
            moderate.covers (by norm_num) (by norm_num)
          rw [zpow_zero, mul_one] at covers
          obtain ⟨amount, scaled, rounded⟩ := Decimal.scale_of_covers (by decide) value covers
          exact ⟨amount, _, valueOfText_suffixed parts read units scaled, rounded, moderate.rounded,
            significant_significant (by norm_num) _⟩

private theorem millicoresOfValue_of_exact {amount : Decimal} {v : ℚ} (exact : amount.toRat? = some v)
    (moderate : Moderate v) :
    millicoresOfValue amount = .ok ⌈1000 * significant 28 v⌉ := by
  have thousand : ((1000 : ℕ) : ℚ) * 10 ^ (0 : ℤ) = 10 ^ (3 : ℤ) := by norm_num
  have covers : Decimal.Context.standard.Covers (v * ((1000 : ℕ) * 10 ^ (0 : ℤ))) := by
    rw [thousand]
    exact moderate.covers (by norm_num) (by norm_num)
  obtain ⟨product, scaled, value⟩ := Decimal.scale_of_covers (by decide) exact covers
  have digits : Decimal.Context.standard.digits = 28 := rfl
  rw [thousand, digits, significant_mul_zpow] at value
  have kilo : significant 28 v * 10 ^ (3 : ℤ) = 1000 * significant 28 v := by
    rw [mul_comm]
    norm_num
  rw [millicoresOfValue, scaled, Outcome.ok_bind, Decimal.ceiling_of_exact value, kilo]

/-- The millicores of an amount of moderate size are rounded once. -/
theorem millicores_of_exact {quantity : Quantity} {v : ℚ} (exact : quantity.exactValue? = some v)
    (moderate : Moderate v) :
    millicores (some quantity) = .ok ⌈1000 * significant 28 v⌉ := by
  obtain ⟨amount, w, read, value, moderately, same⟩ := value_of_exact exact moderate
  have given : quantity ≠ .text "" := by
    rintro rfl
    have empty : exactValue? (.text "") = none := by decide +kernel
    rw [empty] at exact
    cases exact
  rw [millicores, read, Outcome.ok_bind, millicoresOfValue_of_exact value moderately, same]
  rintro rfl
  exact given rfl

/-- Every text that is read as a finite amount denotes an exact one. -/
theorem exists_exact_of_valueOfText {written : String} {amount : Decimal} {w : ℚ}
    (read : valueOfText written = .ok amount) (finite : amount.toRat? = some w) :
    ∃ v, exactValue? (.text written) = some v := by
  rcases parts : split written.toList with ⟨digits, suffix⟩
  rcases numeral : Numeral.read? digits with _ | number
  · simp only [valueOfText, parts, numeral, Outcome.error_bind, reduceCtorEq] at read
  cases suffix with
  | none =>
      rw [valueOfText_plain parts numeral] at read
      cases read
      exact ⟨w, by simp only [exactValue?, parts, numeral, Option.bind_some, finite]⟩
  | some suffix =>
      rcases units : suffix.factor? with _ | ⟨factor, shift⟩
      · simp only [valueOfText, parts, numeral, Outcome.ok_bind, units, reduceCtorEq] at read
      rcases scaled : number.scale .standard factor shift with fault | product
      · simp only [valueOfText, parts, numeral, Outcome.ok_bind, units, scaled, reduceCtorEq] at read
      rw [valueOfText_suffixed parts numeral units scaled] at read
      cases read
      have value : ∃ v, number.toRat? = some v := by
        cases number with
        | finite negative coefficient exponent => exact ⟨_, Decimal.toRat?_finite _ _ _⟩
        | infinite negative =>
            cases scaled
            cases finite
        | nan signaling =>
            cases signaling
            · cases scaled
              cases finite
            · cases scaled
      obtain ⟨v, value⟩ := value
      exact ⟨v * (factor * 10 ^ shift), by
        simp only [exactValue?, parts, numeral, Option.bind_some, value, QuantitySuffix.unit?_eq, units,
          Option.map_some]⟩

/-- **Millicores are rounded once.** The millicores of a quantity of moderate size are the ceiling of a thousand
times its exact amount, taken with 28 significant digits, half to even. So they do not depend on the way in which
the amount is written, they grow with it, and they are exact when the amount has no more digits. -/
theorem millicores_rounds_once {quantity : Quantity} {v : ℚ} (exact : quantity.exactValue? = some v)
    (moderate : Moderate v) :
    millicores (some quantity) = .ok ⌈1000 * significant 28 v⌉ ∧
    (HasDigits 28 v → millicores (some quantity) = .ok ⌈1000 * v⌉) ∧
    (∀ other, other.exactValue? = some v → millicores (some other) = millicores (some quantity)) ∧
    ∀ other w, other.exactValue? = some w → Moderate w → v ≤ w →
      ∃ m n, millicores (some quantity) = .ok m ∧ millicores (some other) = .ok n ∧ m ≤ n := by
  have rounded := millicores_of_exact exact moderate
  refine ⟨rounded, fun short => ?_, fun other same => ?_, fun other w larger moderately order => ?_⟩
  · rw [rounded, significant_of_hasDigits short]
  · rw [rounded, millicores_of_exact same moderate]
  · refine ⟨_, _, rounded, millicores_of_exact larger moderately, ?_⟩
    apply Int.ceil_mono
    exact mul_le_mul_of_nonneg_left (significant_mono (by norm_num) order) (by norm_num)

/-- A millicore and a little more, which its thirtieth digit is too far behind to add, and the double next to a
tenth, which is a little more than a tenth. Every text that is read as a finite amount is such a quantity. -/
theorem millicores_rounds_once_tie :
    millicores (some (.text "1.00000000000000000000000000005m")) = .ok 1 ∧
    millicores (some (.text "0.00100000000000000000000000000005")) = .ok 1 ∧
    millicores (some (.text "1.001m")) = .ok 2 ∧
    millicores (some (.double (.round (1 / 10)))) = .ok 101 ∧
    ∀ written amount w, valueOfText written = .ok amount → amount.toRat? = some w →
      ∃ v, exactValue? (.text written) = some v ∧
        (Moderate v → millicores (some (.text written)) = .ok ⌈1000 * significant 28 v⌉) := by
  have tie : exactValue? (.text "1.00000000000000000000000000005m") =
      some (100000000000000000000000000005 / 10 ^ 32) := by
    decide +kernel
  have lost : significant 28 (100000000000000000000000000005 / 10 ^ 32) = 1 / 1000 := by
    decide +kernel
  have moderate : Moderate (100000000000000000000000000005 / 10 ^ 32) :=
    .of_between (-3) (-2) (by norm_num) (by norm_num) (by norm_num) (by norm_num)
  obtain ⟨rounded, -, same, -⟩ := millicores_rounds_once tie moderate
  have first : millicores (some (.text "1.00000000000000000000000000005m")) = .ok 1 := by
    rw [rounded, lost]
    norm_num
  have exact : exactValue? (.text "1.001m") = some (1001 / 10 ^ 6) := by decide +kernel
  have short : HasDigits 28 (1001 / 10 ^ 6) := ⟨1001, -6, by norm_num, by norm_num⟩
  have moderately : Moderate (1001 / 10 ^ 6) :=
    .of_between (-3) (-2) (by norm_num) (by norm_num) (by norm_num) (by norm_num)
  have above := (millicores_rounds_once exact moderately).2.1 short
  have tenth : exactValue? (.double (.round (1 / 10))) =
      some (3602879701896397 / 36028797018963968) :=
    (Double.exactValue?_round (1 / 10)).trans (by decide +kernel)
  have near : Moderate (3602879701896397 / 36028797018963968) :=
    .of_between (-2) 0 (by norm_num) (by norm_num) (by norm_num) (by norm_num)
  have more : ⌈1000 * significant 28 (3602879701896397 / 36028797018963968)⌉ = 101 := by
    decide +kernel
  refine ⟨first, (same _ (by decide +kernel)).trans first, ?_, ?_, fun written amount w read finite => ?_⟩
  · rw [above]
    norm_num
  · rw [(millicores_rounds_once tenth near).1, more]
  · obtain ⟨v, known⟩ := exists_exact_of_valueOfText read finite
    exact ⟨v, known, fun moderate => (millicores_rounds_once known moderate).1⟩

end Quantity

end SpotCapacity
