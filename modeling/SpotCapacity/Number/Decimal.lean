import SpotCapacity.Number.HalfEven
import SpotCapacity.Number.Double

/-!
# Decimal numbers of bounded precision

A decimal number is a signed coefficient times a power of ten. Numbers are read exactly; products
are rounded to the precision of a `Context`, half to even, with the exponent limits of that
context: too large a result is an error, too small a one loses digits down to zero. Exponents may
be far beyond what could be written out, so no step forms a power of ten that its result does not
need.
-/

namespace SpotCapacity

/-- A decimal number, `coefficient * 10 ^ exponent` with a sign, an infinity, or not a number.
A signaling value that is not a number may not be calculated with. -/
inductive Decimal where
  | finite (negative : Bool) (coefficient : Nat) (exponent : Int)
  | infinite (negative : Bool)
  | nan (signaling : Bool)
  deriving DecidableEq, Repr

/-- Why a calculation with decimal numbers has no result. -/
inductive DecimalFault where
  | signaling
  | overflow
  | ceilingOfNan
  | ceilingOfInfinity
  deriving DecidableEq, Repr

/-- The number of decimal digits of a natural number, one for zero. -/
def digitCount (n : Nat) : Nat :=
  if n < 10 then 1 else digitCount (n / 10) + 1

namespace Decimal

/-- The precision and the exponent limits of calculations. The limits bound the exponent of the
leading digit. -/
structure Context where
  digits : Nat
  maxExponent : Int
  minExponent : Int

/-- Quantities are calculated with 28 digits and leading exponents up to 999999 in size. -/
def Context.standard : Context := ⟨28, 999999, -999999⟩

/-- The exponent of the last digit that the smallest numbers of a context can have. -/
def Context.leastExponent (context : Context) : Int :=
  context.minExponent - (context.digits - 1)

/-- Fits `coefficient * 10 ^ exponent` to a context. The coefficient keeps at most the digits of
the context and none below its least exponent; of a coefficient shorter than the digits to be
dropped nothing is left. -/
def Context.round (context : Context) (negative : Bool) (coefficient : Nat) (exponent : Int) :
    Except DecimalFault Decimal :=
  if coefficient = 0 then .ok (.finite negative 0 0)
  else
    let size := digitCount coefficient
    let lowest := max (exponent + size - context.digits) context.leastExponent
    let dropped := (lowest - exponent).toNat
    let kept := if size < dropped then 0 else halfEven coefficient (Nat.pow 10 dropped)
    let exponent := exponent + dropped
    if kept ≠ 0 ∧ context.maxExponent < exponent + digitCount kept - 1 then .error .overflow
    else .ok (.finite negative kept exponent)

/-- The product with a positive number `factor * 10 ^ shift`, fitted to a context. -/
def scale (context : Context) (factor : Nat) (shift : Int) :
    Decimal → Except DecimalFault Decimal
  | .nan true => .error .signaling
  | .nan false => .ok (.nan false)
  | .infinite negative => .ok (.infinite negative)
  | .finite negative coefficient exponent =>
    context.round negative (coefficient * factor) (exponent + shift)

/-- The least integer that is not below the number. -/
def ceiling : Decimal → Except DecimalFault Int
  | .nan _ => .error .ceilingOfNan
  | .infinite _ => .error .ceilingOfInfinity
  | .finite negative coefficient exponent =>
    if 0 ≤ exponent then
      let magnitude : Int := (coefficient * Nat.pow 10 exponent.toNat : Nat)
      .ok (if negative then -magnitude else magnitude)
    else
      let places := (-exponent).toNat
      if digitCount coefficient ≤ places then
        .ok (if negative ∨ coefficient = 0 then 0 else 1)
      else
        let unit := Nat.pow 10 places
        if negative then .ok (-((coefficient / unit : Nat) : Int))
        else .ok ((coefficient + unit - 1) / unit : Nat)

def ofInt (n : Int) : Decimal := .finite (n < 0) n.natAbs 0

/-- The exact value of a double precision number: a fraction over `2 ^ k` is one over `10 ^ k`. -/
def ofDouble : Double → Decimal
  | .nan => .nan false
  | .infinite negative => .infinite negative
  | .negativeZero => .finite true 0 0
  | .finite value =>
    let places := value.den.log2
    .finite (value.num < 0) (value.num.natAbs * Nat.pow 5 places) (-(places : Int))

/-- The exact value of a finite decimal number. -/
def toRat? : Decimal → Option Rat
  | .finite negative coefficient exponent =>
    let magnitude : Rat :=
      if 0 ≤ exponent then ((coefficient * Nat.pow 10 exponent.toNat : Nat) : Rat)
      else mkRat coefficient (Nat.pow 10 (-exponent).toNat)
    some (if negative then -magnitude else magnitude)
  | .infinite _ => none
  | .nan _ => none

end Decimal

end SpotCapacity
