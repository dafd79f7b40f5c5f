import SpotCapacity.Number.HalfEven
import SpotCapacity.Text.Padded

/-!
# Double precision numbers

Times, delays and gauges are IEEE 754 binary64 numbers. A finite one is given by its value, a
rational with a 53-bit significand, so every operation is exact arithmetic followed by `round`:
round to nearest, ties to the even significand, to an infinity from `2 ^ 1024 - 2 ^ 970` on.
-/

namespace SpotCapacity

/-- A binary64 number; zero has its two signs, and all that is not a number is one value. -/
inductive Double where
  | finite (value : Rat)
  | negativeZero
  | infinite (negative : Bool)
  | nan
  deriving DecidableEq, Repr

namespace Double

instance : Inhabited Double := ⟨.finite 0⟩

def value? : Double → Option Rat
  | .finite value => some value
  | .negativeZero => some 0
  | .infinite _ => none
  | .nan => none

/-- The least exponent `e` for which `n / d` is below `2 ^ (e + 53)`, but at least the exponent of
the subnormal numbers: a number near `n / d` is a multiple of `2 ^ e`. -/
def unitExponent (n d : Nat) : Int :=
  let estimate : Int := (n.log2 : Int) - d.log2 - 52
  let short := n * Nat.pow 2 (-estimate).toNat < Nat.pow 2 52 * (d * Nat.pow 2 estimate.toNat)
  max (if short then estimate - 1 else estimate) (-1074)

/-- The integer multiple of a power of two. -/
def scaled (significand : Int) (exponent : Int) : Rat :=
  if 0 ≤ exponent then ((significand * (Nat.pow 2 exponent.toNat : Nat) : Int) : Rat)
  else mkRat significand (Nat.pow 2 (-exponent).toNat)

/-- The number nearest to an exact value, ties to the even significand. -/
def round (value : Rat) : Double :=
  let n := value.num.natAbs
  if n = 0 then .finite 0
  else
    let exponent := unitExponent n value.den
    let significand :=
      halfEven (n * Nat.pow 2 (-exponent).toNat) (value.den * Nat.pow 2 exponent.toNat)
    let magnitude := scaled significand exponent
    if ((Nat.pow 2 1024 : Nat) : Rat) ≤ magnitude then .infinite (value.num < 0)
    else if value.num < 0 then .finite (-magnitude) else .finite magnitude

/-- The number nearest to an integer; none when the integer is out of range. -/
def ofInt? (n : Int) : Option Double :=
  match round n with
  | .infinite _ => none
  | number => some number

/-- The number nearest to `coefficient * 10 ^ exponent`, with a sign. -/
def ofScientific (negative : Bool) (coefficient : Nat) (exponent : Int) : Double :=
  let size : Int := (Nat.toDigits 10 coefficient).length
  let magnitude : Double :=
    if coefficient = 0 ∨ exponent + size < -400 then .finite 0
    else if 400 < exponent + size then .infinite false
    else if 0 ≤ exponent then round ((coefficient * Nat.pow 10 exponent.toNat : Nat) : Rat)
    else round (mkRat coefficient (Nat.pow 10 (-exponent).toNat))
  match negative, magnitude with
  | false, number => number
  | true, .finite value => if value = 0 then .negativeZero else .finite (-value)
  | true, .infinite _ => .infinite true
  | true, number => number

def neg : Double → Double
  | .finite value => if value = 0 then .negativeZero else .finite (-value)
  | .negativeZero => .finite 0
  | .infinite negative => .infinite !negative
  | .nan => .nan

def add : Double → Double → Double
  | .nan, _ => .nan
  | _, .nan => .nan
  | .infinite left, .infinite right => if left = right then .infinite left else .nan
  | .infinite left, _ => .infinite left
  | _, .infinite right => .infinite right
  | .negativeZero, .negativeZero => .negativeZero
  | .negativeZero, .finite right => .finite right
  | .finite left, .negativeZero => .finite left
  | .finite left, .finite right => round (left + right)

/-- Place in the order of the extended line; what is not a number has none. -/
def rank? : Double → Option (Int × Rat)
  | .finite value => some (0, value)
  | .negativeZero => some (0, 0)
  | .infinite negative => some (if negative then -1 else 1, 0)
  | .nan => none

/-- Whether the first number is less than the second; false if one is not a number. -/
def blt (left right : Double) : Bool :=
  match left.rank?, right.rank? with
  | some (level, value), some (level', value') =>
    level < level' || (level == level' && value < value')
  | _, _ => false

/-- Whether a number is less than an integer, exactly; false if it is not a number. -/
def bltInt (number : Double) (n : Int) : Bool :=
  match number.rank? with
  | some (level, value) => level < 0 || (level == 0 && value < n)
  | none => false

/-- Whether the first number is at most the second; false if one is not a number. -/
def ble (left right : Double) : Bool :=
  match left.rank?, right.rank? with
  | some _, some _ => !right.blt left
  | _, _ => false

instance : Add Double := ⟨add⟩
instance : Sub Double := ⟨fun left right => left.add right.neg⟩
instance : Zero Double := ⟨.finite 0⟩
instance : LT Double := ⟨fun left right => left.blt right = true⟩
instance : LE Double := ⟨fun left right => left.ble right = true⟩
instance (left right : Double) : Decidable (left < right) :=
  inferInstanceAs (Decidable (left.blt right = true))
instance (left right : Double) : Decidable (left ≤ right) :=
  inferInstanceAs (Decidable (left.ble right = true))

/-- The number with a fixed count of decimal places, exact ties to the even digit. -/
def fixed (places : Nat) : Double → String
  | .nan => "nan"
  | .infinite negative => if negative then "-inf" else "inf"
  | .negativeZero => "-" ++ fixedMagnitude 0
  | .finite value => (if value.num < 0 then "-" else "") ++ fixedMagnitude value
where
  fixedMagnitude (value : Rat) : String :=
    let unit := Nat.pow 10 places
    let units := halfEven (value.num.natAbs * unit) value.den
    let whole := toString (units / unit)
    if places = 0 then whole else whole ++ "." ++ Text.padded places (units % unit)

end Double

end SpotCapacity
