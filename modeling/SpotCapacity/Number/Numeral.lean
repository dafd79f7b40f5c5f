import SpotCapacity.Number.Decimal
import SpotCapacity.Text.Blank
import SpotCapacity.Text.DecimalDigit

/-!
# Written decimal numbers

A decimal number is written as digits with an optional point, sign and exponent, or as one of the
words for an infinity and for what is not a number. Blanks around it and low lines in it are
ignored, and digits may come from any script. Reading is exact; a number whose exponent lies
outside the bounds of `Numeral.maxExponent` and `Numeral.minExponent` is not accepted.
-/

namespace SpotCapacity.Numeral

/-- The largest exponent that the leading digit of a written number may have. -/
def maxExponent : Int := 999999999999999999

/-- The smallest exponent that the last digit of a written number may have. -/
def minExponent : Int := -1999999999999999997

/-- The text without surrounding blanks and without low lines, each digit in its ASCII form. -/
def normalize (text : List Char) : List Char :=
  ((Text.trim text).filter (· != '_')).map fun c =>
    match Text.digitValue? c with
    | some value => Char.ofNat ('0'.toNat + value)
    | none => c

/-- A sign, if there is one, and what follows; true means minus. -/
def splitSign : List Char → Bool × List Char
  | '+' :: rest => (false, rest)
  | '-' :: rest => (true, rest)
  | text => (false, text)

def digitsValue (digits : List Char) : Nat :=
  Text.ofDigits (digits.map fun c => c.toNat - '0'.toNat)

/-- Reads what follows the digits: nothing, or an exponent. -/
def readExponent? : List Char → Option Int
  | [] => some 0
  | mark :: rest =>
    let (negative, digits) := splitSign rest
    if (mark = 'e' ∨ mark = 'E') ∧ digits ≠ [] ∧ digits.all Char.isDigit then
      let magnitude : Int := digitsValue digits
      some (if negative then -magnitude else magnitude)
    else none

/-- Whether a coefficient and an exponent make an accepted number. -/
def inRange (coefficient : Nat) (exponent : Int) : Bool :=
  minExponent ≤ exponent && exponent + digitCount coefficient - 1 ≤ maxExponent

/-- Reads digits with an optional point and an optional exponent. -/
def readNumber? (negative : Bool) (text : List Char) : Option Decimal := do
  let whole := text.takeWhile Char.isDigit
  let afterWhole := text.dropWhile Char.isDigit
  let (fraction, rest) :=
    match afterWhole with
    | '.' :: afterPoint => (afterPoint.takeWhile Char.isDigit, afterPoint.dropWhile Char.isDigit)
    | _ => ([], afterWhole)
  guard (whole ≠ [] ∨ fraction ≠ [])
  let written ← readExponent? rest
  let coefficient := digitsValue (whole ++ fraction)
  let exponent := written - fraction.length
  guard (inRange coefficient exponent)
  return .finite negative coefficient exponent

/-- Reads a word for an infinity or for what is not a number; such a value may carry digits. -/
def readWord? (negative : Bool) (text : List Char) : Option Decimal :=
  match text.map Char.toLower with
  | ['i', 'n', 'f'] => some (.infinite negative)
  | ['i', 'n', 'f', 'i', 'n', 'i', 't', 'y'] => some (.infinite negative)
  | 'n' :: 'a' :: 'n' :: digits => if digits.all Char.isDigit then some (.nan false) else none
  | 's' :: 'n' :: 'a' :: 'n' :: digits =>
    if digits.all Char.isDigit then some (.nan true) else none
  | _ => none

def read? (text : List Char) : Option Decimal :=
  let (negative, body) := splitSign (normalize text)
  match readWord? negative body with
  | some number => some number
  | none => readNumber? negative body

end SpotCapacity.Numeral
