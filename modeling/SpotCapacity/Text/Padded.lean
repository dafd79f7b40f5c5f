/-!
# Padded numbers

Natural numbers in decimal digits, filled up with zeros to a least length.
-/

namespace SpotCapacity.Text

/-- The digits of a natural number, filled up with zeros to a least length. -/
def padded (length : Nat) (n : Nat) : String :=
  let digits := Nat.toDigits 10 n
  String.ofList (List.replicate (length - digits.length) '0' ++ digits)

end SpotCapacity.Text
