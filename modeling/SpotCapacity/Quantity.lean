import SpotCapacity.Number.Numeral

/-!
# Quantities

The amounts in which a cluster states resources: numbers with an optional suffix, `500m`, `0.25`,
`2Ki`. `Quantity.value` is the amount a quantity denotes, `Quantity.millicores` the same in
thousandths of a core, with fractions of a thousandth rounded up.
-/

namespace SpotCapacity

/-- An amount as a cluster object states it: mostly text, sometimes a bare number. -/
inductive Quantity where
  | text (text : String)
  | integer (n : Int)
  | boolean (flag : Bool)
  | double (number : Double)
  deriving DecidableEq, Repr

/-- Why a quantity has no amount in millicores. -/
inductive QuantityFault where
  | numberFormat (number : String)
  | unknownSuffix (quantity : String)
  | outOfRange (quantity : String)
  | decimal (fault : DecimalFault)
  deriving DecidableEq, Repr

/-- A unit behind a number; the binary ones are written with an `i`. -/
structure QuantitySuffix where
  letter : Char
  binary : Bool
  deriving DecidableEq, Repr

namespace QuantitySuffix

/-- The letters of the units with their powers of the base. -/
def powers : List (Char × Int) :=
  [('n', -3), ('u', -2), ('m', -1), ('K', 1), ('k', 1), ('M', 2), ('G', 3), ('T', 4), ('P', 5),
   ('E', 6)]

/-- The factor of a unit as a coefficient and a power of ten. Decimal units are powers of a
thousand; the binary units are powers of 1024 and start with `Ki`. -/
def factor? (suffix : QuantitySuffix) : Option (Nat × Int) := do
  let power ← powers.lookup suffix.letter
  if suffix.binary then
    if suffix.letter = 'k' ∨ power < 0 then none else some (Nat.pow 1024 power.toNat, 0)
  else some (1, 3 * power)

end QuantitySuffix

namespace Quantity

/-- Whether a character is the letter of a unit. -/
def isUnit (c : Char) : Bool := (QuantitySuffix.powers.lookup c).isSome

/-- The number part of a quantity and its suffix. A final `i` belongs to the suffix when a unit
stands before it, and otherwise to the number. -/
def split (text : List Char) : List Char × Option QuantitySuffix :=
  match text.reverse with
  | 'i' :: letter :: rest =>
    if isUnit letter then (rest.reverse, some ⟨letter, true⟩) else (text, none)
  | letter :: rest => if isUnit letter then (rest.reverse, some ⟨letter, false⟩) else (text, none)
  | [] => (text, none)

/-- The amount that a text denotes. Without a suffix the number stands as it is written; with one
it is the rounded product. -/
def valueOfText (text : String) : Except QuantityFault Decimal := do
  let (digits, suffix) := split text.toList
  let number ←
    match Numeral.read? digits with
    | some number => .ok number
    | none => .error (.numberFormat (String.ofList digits))
  match suffix with
  | none => return number
  | some suffix =>
    match suffix.factor? with
    | none => .error (.unknownSuffix text)
    | some (factor, shift) =>
      match number.scale .standard factor shift with
      | .ok amount => return amount
      | .error _ => .error (.outOfRange text)

/-- The amount that a quantity denotes. -/
def value : Quantity → Except QuantityFault Decimal
  | .text written => valueOfText written
  | .integer n => .ok (.ofInt n)
  | .boolean flag => .ok (.ofInt (if flag then 1 else 0))
  | .double number => .ok (.ofDouble number)

/-- A thousand times the amount, rounded up to an integer. -/
def millicoresOfValue (amount : Decimal) : Except QuantityFault Int :=
  match amount.scale .standard 1000 0 >>= Decimal.ceiling with
  | .ok millicores => .ok millicores
  | .error fault => .error (.decimal fault)

/-- The quantity in millicores; an absent or empty one counts as nothing. -/
def millicores : Option Quantity → Except QuantityFault Int
  | none => .ok 0
  | some (.text "") => .ok 0
  | some quantity => quantity.value >>= millicoresOfValue

end Quantity

end SpotCapacity
