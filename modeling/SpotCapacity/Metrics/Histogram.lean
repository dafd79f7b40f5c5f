import SpotCapacity.Number.Double

/-!
# Histograms

Counts of observed durations by the least bound that they do not exceed, and their sum. The last
bound is infinite, so every duration that is a number is counted once.
-/

namespace SpotCapacity

/-- How many durations fell to each bound, and the sum of all. -/
structure Histogram where
  counts : List Nat
  sum : Double
  deriving Repr

namespace Histogram

/-- The bounds in seconds, in rising order. -/
def bounds : List Double :=
  [5, 10, 25, 50, 75, 100, 250, 500, 750, 1000, 2500, 5000, 7500, 10000].map
      (fun milliseconds => Double.round (mkRat milliseconds 1000)) ++
    [.infinite false]

def empty : Histogram := ⟨bounds.map fun _ => 0, 0⟩

/-- Counts a duration at the first bound that it does not exceed. -/
def countAt (duration : Double) : List Double → List Nat → List Nat
  | bound :: bounds, count :: counts =>
    if duration ≤ bound then (count + 1) :: counts else count :: countAt duration bounds counts
  | _, counts => counts

def observe (duration : Double) (histogram : Histogram) : Histogram :=
  ⟨countAt duration bounds histogram.counts, histogram.sum + duration⟩

def count (histogram : Histogram) : Nat := histogram.counts.foldr (· + ·) 0

/-- For each bound the number of durations that do not exceed it. -/
def cumulative (histogram : Histogram) : List Nat :=
  go 0 histogram.counts
where
  /-- The running totals, from a total on. -/
  go (total : Nat) : List Nat → List Nat
    | [] => []
    | count :: rest => (total + count) :: go (total + count) rest

end Histogram

end SpotCapacity
