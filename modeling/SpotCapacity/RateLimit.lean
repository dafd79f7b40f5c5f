import SpotCapacity.Number.Double
import SpotCapacity.Fault

/-!
# Rate limiting

At most a number of calls within any window of time. A limiter keeps the times of the calls that are
still inside the window; a call that finds the window full sleeps until the oldest of them leaves
it. Times are of any type with a difference and an order, so that the same limiter runs on double
precision clocks and can be reasoned about on exact ones. The length of a window is a span of such
times or a whole number of seconds, which the clock need not be able to show.
-/

namespace SpotCapacity

/-- How the spans of time on a clock relate to whole seconds. -/
class Clock (τ : Type) where
  /-- The span nearest to a number of seconds, if the clock can show it. -/
  ofSeconds? : Int → Option τ
  /-- Whether a span is less than a number of seconds. -/
  lessThan : τ → Int → Bool

instance : Clock Double := ⟨Double.ofInt?, Double.bltInt⟩

instance : Clock Rat := ⟨fun n => some n, fun span n => span < n⟩

/-- The length of a window. -/
inductive Window (τ : Type) where
  | span (length : τ)
  | seconds (count : Int)
  deriving Repr

namespace Window

variable {τ : Type}

/-- Whether a span of time is less than the window. -/
def covers [LT τ] [DecidableLT τ] [Clock τ] (window : Window τ) (elapsed : τ) : Bool :=
  match window with
  | .span length => elapsed < length
  | .seconds count => Clock.lessThan elapsed count

/-- What is left of the window after a span of time. -/
def rest [Sub τ] [Clock τ] (window : Window τ) (elapsed : τ) : Except Fault τ :=
  match window with
  | .span length => .ok (length - elapsed)
  | .seconds count =>
    match Clock.ofSeconds? count with
    | some length => .ok (length - elapsed)
    | none => .error .doubleRange

end Window

/-- A limiter with the times of the calls it keeps. `reports` says whether it reports delays to the
metrics. -/
structure Limiter (τ : Type) where
  maxCalls : Int
  window : Window τ
  reports : Bool
  calls : List τ
  deriving Repr

/-- A granted call: when it was granted, after which delay, and the limiter that knows of it. -/
structure Grant (τ : Type) where
  time : τ
  delay : Option τ
  limiter : Limiter τ
  deriving Repr

namespace Limiter

variable {τ : Type}

def new (maxCalls : Int) (window : Window τ) (reports : Bool) : Limiter τ :=
  ⟨maxCalls, window, reports, []⟩

/-- The earliest of the kept times. -/
def oldest? [LT τ] [DecidableLT τ] : List τ → Option τ
  | [] => none
  | first :: rest =>
    some (rest.foldl (fun least time => if time < least then time else least) first)

/-- Keeps the calls that are inside the window at a time. -/
def prune [Sub τ] [LT τ] [DecidableLT τ] [Clock τ] (limiter : Limiter τ) (now : τ) : Limiter τ :=
  { limiter with calls := limiter.calls.filter fun call => limiter.window.covers (now - call) }

/-- The time to sleep before a call, if the window is full. A limiter that admits no call at all has
no oldest call to wait for. -/
def delay? [Sub τ] [LT τ] [DecidableLT τ] [Zero τ] [Clock τ] (limiter : Limiter τ) (now : τ) :
    Except Fault (Option τ) :=
  if (limiter.calls.length : Int) < limiter.maxCalls then .ok none
  else
    match oldest? limiter.calls with
    | none => .error .noCallsKept
    | some oldest => do
      let delay ← limiter.window.rest (now - oldest)
      return if 0 < delay then some delay else none

def record (limiter : Limiter τ) (now : τ) : Limiter τ :=
  { limiter with calls := limiter.calls ++ [now] }

/-- One call that arrives at a time, on a clock that shows `wake delay` after a sleep. -/
def acquire [Sub τ] [LT τ] [DecidableLT τ] [Zero τ] [Clock τ]
    (limiter : Limiter τ) (now : τ) (wake : τ → τ) : Except Fault (Grant τ) := do
  let pruned := limiter.prune now
  match ← pruned.delay? now with
  | none => return ⟨now, none, pruned.record now⟩
  | some delay =>
    let later := wake delay
    return ⟨later, some delay, (pruned.prune later).record later⟩

end Limiter

end SpotCapacity
