import SpotCapacity.Text.Padded

/-!
# Timestamps

The time of a log record, in milliseconds since the start of 1970, as date and time of day in UTC.
Days are counted in eras of 400 years, which all have the same number of days, and years that begin
in March, so that a leap day is the last day of its year. A time so far away that its year is not a
32-bit number has no timestamp.
-/

namespace SpotCapacity.Timestamp

structure Date where
  year : Int
  month : Nat
  day : Nat
  deriving DecidableEq, Repr

def daysPerEra : Nat := 146097

/-- The first of March of the year 0 in days before the start of 1970. -/
def eraStart : Nat := 719468

/-- The year within its era that holds a day of the era. -/
def yearOfEra (day : Nat) : Nat := (day - day / 1460 + day / 36524 - day / 146096) / 365

/-- The date that lies a number of days after the start of 1970. -/
def dateOfDays (days : Int) : Date :=
  let count := days + eraStart
  let era := count / daysPerEra
  let day := (count % daysPerEra).toNat
  let year := yearOfEra day
  let dayOfYear := day - (365 * year + year / 4 - year / 100)
  let month := (5 * dayOfYear + 2) / 153
  { year := era * 400 + year + (if month < 10 then 0 else 1)
    month := if month < 10 then month + 3 else month - 9
    day := dayOfYear - (153 * month + 2) / 5 + 1 }

/-- The whole seconds of a time, rounded down. -/
def seconds (time : Int) : Int := time / 1000

/-- The milliseconds of a time beside its whole seconds. -/
def milliseconds (time : Int) : Nat := (time % 1000).toNat

/-- Whether a year is a 32-bit number, and also is one when it is counted from 1900. -/
def hasYear (year : Int) : Bool := 1900 - 0x80000000 ≤ year && year < 0x80000000

def toSeconds? (time : Int) : Option String := do
  let date := dateOfDays (seconds time / 86400)
  let second := (seconds time % 86400).toNat
  guard (hasYear date.year)
  return s!"{date.year}-{Text.padded 2 date.month}-{Text.padded 2 date.day} " ++
    s!"{Text.padded 2 (second / 3600)}:{Text.padded 2 (second / 60 % 60)}:" ++
    Text.padded 2 (second % 60)

def toMilliseconds? (time : Int) : Option String :=
  (toSeconds? time).map fun text => text ++ "," ++ Text.padded 3 (milliseconds time)

end SpotCapacity.Timestamp
