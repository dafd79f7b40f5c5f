import SpotCapacity.Session

/-!
# Worker pools

Tasks that run side by side, with results in the order of the tasks. A pool starts waiting tasks in
order, at most as many at a time as it has workers; a task has its effects when it starts and its
result is seen when it finishes. The caller waits for the results in order. Once it has seen a
load fault it cancels the tasks that are still waiting, and the first fault in the order of the
tasks is the outcome, whatever the times at which the tasks finished.

`PoolMove` lists the decisions that the order of events leaves open, so that a statement about every
list of moves is one about every schedule.
-/

namespace SpotCapacity

/-- A task in a pool. -/
inductive PoolCell (α : Type) where
  | waiting (task : Act α)
  | running (result : Except Fault α)
  | finished (result : Except Fault α)

/-- A decision of the schedule: the next waiting task starts, the task at a place finishes, or the
caller looks at the results so far. -/
inductive PoolMove where
  | start
  | finish (place : Nat)
  | observe
  deriving DecidableEq, Repr

namespace PoolCell

variable {α : Type}

def isRunning : PoolCell α → Bool
  | .running _ => true
  | _ => false

/-- The cell after its task has finished, if it was running. -/
def finish : PoolCell α → PoolCell α
  | .running result => .finished result
  | cell => cell

end PoolCell

namespace Pool

variable {α : Type}

def startNext : List (PoolCell α) → StateM Session (List (PoolCell α))
  | [] => pure []
  | .waiting task :: rest => do
    let result ← task.run
    return .running result :: rest
  | cell :: rest => do
    let others ← startNext rest
    return cell :: others

/-- The fault that a caller sees who waits for the results in order: the first one, if all tasks
before it have finished. -/
def seen? : List (PoolCell α) → Option Fault
  | .finished (.ok _) :: rest => seen? rest
  | .finished (.error fault) :: _ => some fault
  | _ => none

def startAll : List (PoolCell α) → StateM Session Unit
  | [] => pure ()
  | .waiting task :: rest => do
    let _ ← task.run
    startAll rest
  | _ :: rest => startAll rest

/-- Lets the pool come to its end: the tasks are awaited in order, and a waiting one starts when
its turn comes. After a load fault the waiting tasks are cancelled; after another fault they still
run, and their results are not looked at. -/
def conclude : List (PoolCell α) → StateM Session (Except Fault (List α))
  | [] => pure (.ok [])
  | cell :: rest => do
    let result ←
      match cell with
      | .waiting task => task.run
      | .running result => pure result
      | .finished result => pure result
    match result with
    | .ok value =>
      match ← conclude rest with
      | .ok values => return .ok (value :: values)
      | .error fault => return .error fault
    | .error fault =>
      if !fault.kind.isLoad then startAll rest
      return .error fault

/-- Runs a pool by a schedule and then to its end. -/
def run (workers : Int) :
    List PoolMove → List (PoolCell α) → StateM Session (Except Fault (List α))
  | [], cells => conclude cells
  | .start :: moves, cells => do
    if ((cells.countP PoolCell.isRunning : Nat) : Int) < workers then
      let cells ← startNext cells
      run workers moves cells
    else run workers moves cells
  | .finish place :: moves, cells => run workers moves (cells.modify place PoolCell.finish)
  | .observe :: moves, cells =>
    match seen? cells with
    | some fault => if fault.kind.isLoad then pure (.error fault) else run workers moves cells
    | none => run workers moves cells

def results (workers : Int) (schedule : List PoolMove) (tasks : List (Act α)) : Act (List α) :=
  run workers schedule (tasks.map .waiting)

end Pool

end SpotCapacity
