import SpotCapacity.Text.Blank
import SpotCapacity.Text.DecimalDigit

/-!
# Written integers

How integers are read from settings and where they are too long to be written. An integer is a sign
and decimal digits of any script, with single low lines allowed between digits and white space
around it. Neither reading nor writing goes beyond `maxDigits` digits.
-/

namespace SpotCapacity.Text

/-- The longest integer that is read or written, in digits; leading zeros count. -/
def maxDigits : Nat := 4300

/-- White space around an integer: the blanks other than the information separators. -/
def isIntegerSpace (c : Char) : Bool :=
  isBlank c && !(28 ≤ c.toNat && c.toNat ≤ 31)

/-- Digits with single low lines between them, as values. -/
def groupedDigits? : List Char → Option (List Nat)
  | [] => none
  | [c] => (digitValue? c).map ([·])
  | c :: '_' :: rest => do
    let value ← digitValue? c
    let values ← groupedDigits? rest
    return value :: values
  | c :: rest => do
    let value ← digitValue? c
    let values ← groupedDigits? rest
    return value :: values

/-- Reads digits of at most the greatest length. -/
def natural? (text : List Char) : Option Nat := do
  let digits ← groupedDigits? text
  guard (digits.length ≤ maxDigits)
  return ofDigits digits

def integer? (text : List Char) : Option Int :=
  let body := (((text.dropWhile isIntegerSpace).reverse).dropWhile isIntegerSpace).reverse
  match body with
  | '+' :: digits => (natural? digits).map fun n => (n : Int)
  | '-' :: digits => (natural? digits).map fun n => -(n : Int)
  | digits => (natural? digits).map fun n => (n : Int)

def isWritable (n : Int) : Bool := n.natAbs < Nat.pow 10 maxDigits

end SpotCapacity.Text
